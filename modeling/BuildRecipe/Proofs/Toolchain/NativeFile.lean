import BuildRecipe.Toolchain.NativeFile
import BuildRecipe.Proofs.Options.Selection
import Mathlib.Data.List.TakeWhile
/-!
# Reading a native file back

The build tool reads a native file line by line: comment lines (`#` first) and empty lines
are skipped, a line `[name]` opens a section, and every other line is an entry `key = 'value'`
of the section opened last, whose value is a single-quoted literal in which a backslash stands
before a backslash or a quote and a quote closes the literal at the end of the line
(`NativeFile.readIni`).

Main statements: undoing the escapes of a literal gives back its value, whatever follows the
literal (`readQuoted_escape_append`); the lines of a native file are its two sections with every
field under its key, whatever the fields hold (`readLines_renderLines`); but a newline in a field
is written as it is, so the text of a native file is read back exactly when no field holds a
newline (`readIni_render_iff_newline_free`), and a field with a newline leaves a line that is no
entry, so nothing is read (`readIni_render_of_newline`). The file of a build takes its compiler
name as it is, so it reads back exactly when the compiler name holds no newline.
-/

namespace BuildRecipe

namespace NativeFile

-- ============================================================================
-- The reader
-- ============================================================================

/-- The value of a literal's body up to its closing quote, which must end the line: a backslash
stands before a backslash or a quote, and a quote closes. -/
def readQuoted : List Char → Option (List Char)
  | [] => none
  | c :: cs =>
    if c = '\'' then (if cs = [] then some [] else none)
    else if c = '\\' then
      match cs with
      | d :: ds => if d = '\\' ∨ d = '\'' then (readQuoted ds).map (d :: ·) else none
      | [] => none
    else (readQuoted cs).map (c :: ·)

/-- The value of a single-quoted literal that ends the line. -/
def readLiteral : List Char → Option (List Char)
  | [] => none
  | c :: body => if c = '\'' then readQuoted body else none

/-- A line `key = 'value'`: the key before the first blank, then `= ` and the literal. -/
def readEntry (line : List Char) : Option (String × String) :=
  match Text.splitFirst ' ' line with
  | some (key, '=' :: ' ' :: lit) => (readLiteral lit).map fun v => (String.ofList key, String.ofList v)
  | _ => none

/-- A line `[name]`. -/
def readHeader : List Char → Option String
  | '[' :: rest => if rest.getLast? = some ']' then some (String.ofList rest.dropLast) else none
  | _ => none

/-- Lines the reader passes over: empty lines and comments. -/
def skipped (line : List Char) : Bool := line.isEmpty || line.head? == some '#'

/-- The lines read as the entries before their first header and the sections after it. -/
def readLines : List (List Char) →
    Option (List (String × String) × List (String × List (String × String)))
  | [] => some ([], [])
  | l :: ls => (readLines ls).bind fun (entries, sections) =>
    if skipped l then some (entries, sections)
    else match readHeader l with
      | some name => some ([], (name, entries) :: sections)
      | none => (readEntry l).map fun e => (e :: entries, sections)

/-- A text read as sections of entries; an entry before the first header is refused. -/
def readIni (text : String) : Option (List (String × List (String × String))) :=
  match readLines (text.toList.splitOn '\n') with
  | some ([], sections) => some sections
  | _ => none

/-- The entries of the `[binaries]` section. -/
def binaries (n : NativeFile) : List (String × String) := [("c", n.c), ("cpp", n.cpp)]

/-- The entries of the `[built-in options]` section. -/
def builtinOptions (n : NativeFile) : List (String × String) :=
  [("buildtype", n.buildtype), ("default_library", n.defaultLibrary), ("prefix", n.pre),
    ("libdir", n.libdir), ("includedir", n.includedir)]

/-- The sections a native file stands for: its binaries and its built-in options, each field
under its key. -/
def sections (n : NativeFile) : List (String × List (String × String)) :=
  [("binaries", n.binaries), ("built-in options", n.builtinOptions)]

/-- The fields of a native file. -/
def values (n : NativeFile) : List String :=
  [n.c, n.cpp, n.buildtype, n.defaultLibrary, n.pre, n.libdir, n.includedir]

-- ============================================================================
-- Literals
-- ============================================================================

theorem readQuoted_escaped {c : Char} (h : c = '\\' ∨ c = '\'') (cs : List Char) :
    readQuoted ('\\' :: c :: cs) = (readQuoted cs).map (c :: ·) := by
  rw [readQuoted]
  simp [h]

theorem readQuoted_plain {c : Char} (hq : c ≠ '\'') (hb : c ≠ '\\') (cs : List Char) :
    readQuoted (c :: cs) = (readQuoted cs).map (c :: ·) := by
  cases cs <;> simp [readQuoted, hq, hb]

/-- Undoing the escapes of an escaped text goes on with what follows it. -/
theorem readQuoted_escape_append (u w : List Char) :
    readQuoted (escape u ++ w) = (readQuoted w).map (u ++ ·) := by
  induction u with
  | nil => simp [escape]
  | cons c u ih =>
    by_cases h : c = '\\' ∨ c = '\''
    · -- an escaped character: the backslash goes, the character stays
      rw [escape, if_pos h, List.cons_append, List.cons_append, readQuoted_escaped h, ih,
        Option.map_map]
      rfl
    · rw [not_or] at h
      rw [escape, if_neg (not_or.mpr h), List.cons_append, readQuoted_plain h.2 h.1, ih,
        Option.map_map]
      rfl

theorem readLiteral_literal (v : String) : readLiteral (literal v).toList = some v.toList := by
  simp [literal, readLiteral, readQuoted_escape_append, readQuoted]

/-- An escaped text holds a newline exactly when the text does. -/
theorem newline_mem_escape_iff (u : List Char) : '\n' ∈ escape u ↔ '\n' ∈ u := by
  induction u with
  | nil => simp [escape]
  | cons c u ih => by_cases h : c = '\\' ∨ c = '\'' <;> simp [escape, h, ih]

/-- A literal's body cut before its closing quote never closes. -/
theorem readQuoted_escape (u : List Char) : readQuoted (escape u) = none := by
  simpa [readQuoted] using readQuoted_escape_append u []

theorem takeWhile_cons_of_ne_newline {c : Char} (hc : c ≠ '\n') (l : List Char) :
    (c :: l).takeWhile (· ≠ '\n') = c :: l.takeWhile (· ≠ '\n') :=
  List.takeWhile_cons_of_pos (by simpa using hc)

/-- Escaping keeps what stands before the first newline. -/
theorem takeWhile_escape (u : List Char) :
    (escape u).takeWhile (· ≠ '\n') = escape (u.takeWhile (· ≠ '\n')) := by
  induction u with
  | nil => rfl
  | cons c u ih =>
    by_cases hn : c = '\n'
    · subst hn
      simp [escape]
    · by_cases h : c = '\\' ∨ c = '\''
      · rw [escape, if_pos h, takeWhile_cons_of_ne_newline (by decide),
          takeWhile_cons_of_ne_newline hn, takeWhile_cons_of_ne_newline hn, ih, escape, if_pos h]
      · rw [escape, if_neg h, takeWhile_cons_of_ne_newline hn, takeWhile_cons_of_ne_newline hn,
          ih, escape, if_neg h]

-- ============================================================================
-- Lines
-- ============================================================================

/-- The line of an entry: its key, ` = ` and the literal of its value. -/
def entryLine (e : String × String) : List Char := (e.1 ++ " = " ++ literal e.2).toList

/-- The lines of a native file's text, the empty one after its last newline included. -/
def renderLines (n : NativeFile) : List (List Char) :=
  ["# Generated by kiln; do not edit".toList, [], "[binaries]".toList] ++
    n.binaries.map entryLine ++ [[], "[built-in options]".toList] ++
    n.builtinOptions.map entryLine ++ [[]]

theorem render_toList (n : NativeFile) :
    n.render.toList = ['\n'].intercalate (renderLines n) := by
  -- `simp` would unfold `render` into one literal; the appends are split first
  unfold render renderLines binaries builtinOptions entryLine
  simp only [List.map_cons, List.map_nil, List.cons_append, List.nil_append,
    String.toList_append, List.intercalate_cons_cons, List.intercalate_singleton,
    List.append_assoc]
  simp

theorem head?_splitOn (sep : Char) :
    ∀ s : List Char, (s.splitOn sep).head? = some (s.takeWhile (· ≠ sep))
  | [] => rfl
  | c :: s => by
    rw [List.splitOn_cons_eq_if_modifyHead]
    by_cases h : c = sep
    · simp [h]
    · simp [h, head?_splitOn sep s]

/-- Whatever stands in a line before its first separator is one of the pieces the text of the
lines is cut into. -/
theorem takeWhile_mem_splitOn_intercalate (sep : Char) :
    ∀ {ls : List (List Char)} {l : List Char}, l ∈ ls →
      l.takeWhile (· ≠ sep) ∈ ([sep].intercalate ls).splitOn sep
  | [], _, hl => absurd hl List.not_mem_nil
  | [x], l, hl => by
    rw [List.mem_singleton.mp hl, List.intercalate_singleton]
    exact List.mem_of_mem_head? (head?_splitOn sep _)
  | x :: y :: ys, l, hl => by
    rw [List.intercalate_cons_cons, List.append_assoc, List.singleton_append,
      List.splitOn_append_cons_self]
    rcases List.mem_cons.mp hl with rfl | hl
    · exact List.mem_append_left _ (List.mem_of_mem_head? (head?_splitOn sep _))
    · exact List.mem_append_right _ (takeWhile_mem_splitOn_intercalate sep hl)

-- ============================================================================
-- Reading lines
-- ============================================================================

theorem readLines_skipped {l : List Char} (h : skipped l = true) (ls : List (List Char)) :
    readLines (l :: ls) = readLines ls := by
  cases hr : readLines ls <;> simp [readLines, hr, h]

theorem readLines_header {l : List Char} {name : String} (hs : skipped l = false)
    (h : readHeader l = some name) (ls : List (List Char)) :
    readLines (l :: ls) = (readLines ls).map fun r => ([], (name, r.1) :: r.2) := by
  cases hr : readLines ls <;> simp [readLines, hr, hs, h]

theorem readLines_entry {l : List Char} {e : String × String} (hs : skipped l = false)
    (hh : readHeader l = none) (he : readEntry l = some e) (ls : List (List Char)) :
    readLines (l :: ls) = (readLines ls).map fun r => (e :: r.1, r.2) := by
  cases hr : readLines ls <;> simp [readLines, hr, hs, hh, he]

/-- One line that is neither skipped, a header nor an entry makes the whole reading fail. -/
theorem readLines_eq_none_of_mem {l : List Char} (hs : skipped l = false)
    (hh : readHeader l = none) (he : readEntry l = none) :
    ∀ {ls : List (List Char)}, l ∈ ls → readLines ls = none
  | _ :: ls, .head _ => by cases hr : readLines ls <;> simp [readLines, hr, hs, hh, he]
  | _ :: _, .tail _ hl => by simp [readLines, readLines_eq_none_of_mem hs hh he hl]

-- ============================================================================
-- Entry lines
-- ============================================================================

/-- A key the reader takes whole as the key of an entry line: its first character opens neither
a comment nor a header, and it holds no blank and no newline. -/
def entryKey : List Char → Bool
  | [] => false
  | k :: ks => k != '#' && k != '[' && !(k :: ks).contains ' ' && !(k :: ks).contains '\n'

theorem entryKey_iff {l : List Char} :
    entryKey l = true ↔
      ∃ k ks, l = k :: ks ∧ k ≠ '#' ∧ k ≠ '[' ∧ ' ' ∉ l ∧ '\n' ∉ l := by
  cases l <;> simp [entryKey, and_assoc]

theorem entryLine_eq (e : String × String) :
    entryLine e = e.1.toList ++ ' ' :: '=' :: ' ' :: '\'' :: (escape e.2.toList ++ ['\'']) := by
  simp [entryLine, literal]

theorem takeWhile_append_of_mem {p : Char → Bool} {a : Char} {xs : List Char} (ha : a ∈ xs)
    (hp : p a = false) (ys : List Char) : (xs ++ ys).takeWhile p = xs.takeWhile p := by
  rw [List.takeWhile_append, if_neg]
  intro hlen
  have hpre : xs.takeWhile p <+: xs := List.takeWhile_prefix p
  have hall := List.takeWhile_eq_self_iff.mp (hpre.eq_of_length hlen)
  simp [hall a ha] at hp

section EntryKey

variable {e : String × String} (hk : entryKey e.1.toList = true)
include hk

theorem skipped_of_entryKey (rest : List Char) : skipped (e.1.toList ++ rest) = false := by
  obtain ⟨k, ks, hl, h1, -⟩ := entryKey_iff.mp hk
  simp [skipped, hl, h1]

theorem readHeader_of_entryKey (rest : List Char) : readHeader (e.1.toList ++ rest) = none := by
  obtain ⟨k, ks, hl, -, h2, -⟩ := entryKey_iff.mp hk
  rw [hl, List.cons_append]
  unfold readHeader
  split
  · simp_all
  · rfl

theorem readEntry_entryLine : readEntry (entryLine e) = some e := by
  obtain ⟨-, -, -, -, -, hb, -⟩ := entryKey_iff.mp hk
  rw [readEntry, entryLine_eq, splitFirst_append_of_not_mem _ hb]
  simp [readLiteral, readQuoted_escape_append, readQuoted]

/-- A line holds a newline exactly when its value does. -/
theorem newline_mem_entryLine_iff : '\n' ∈ entryLine e ↔ '\n' ∈ e.2.toList := by
  obtain ⟨-, -, -, -, -, -, hn⟩ := entryKey_iff.mp hk
  simp [entryLine_eq, hn, newline_mem_escape_iff]

/-- Cut at its first newline, the line of a value with a newline keeps its key and an
unterminated literal. -/
theorem takeWhile_entryLine (hv : '\n' ∈ e.2.toList) :
    (entryLine e).takeWhile (· ≠ '\n') =
      e.1.toList ++ ' ' :: '=' :: ' ' :: '\'' :: escape (e.2.toList.takeWhile (· ≠ '\n')) := by
  obtain ⟨-, -, -, -, -, -, hn⟩ := entryKey_iff.mp hk
  have hkey : ∀ c ∈ e.1.toList, decide (c ≠ '\n') = true := by
    intro c hc
    have hc' : c ≠ '\n' := fun h => hn (h ▸ hc)
    simpa using hc'
  -- the newline of the value stops the cut inside the escaped value
  have hcut : (escape e.2.toList ++ ['\'']).takeWhile (· ≠ '\n') =
      escape (e.2.toList.takeWhile (· ≠ '\n')) := by
    rw [takeWhile_append_of_mem ((newline_mem_escape_iff _).mpr hv) (by simp), takeWhile_escape]
  rw [entryLine_eq, List.takeWhile_append_of_pos hkey, takeWhile_cons_of_ne_newline (by decide),
    takeWhile_cons_of_ne_newline (by decide), takeWhile_cons_of_ne_newline (by decide),
    takeWhile_cons_of_ne_newline (by decide), hcut]

/-- The first piece of such a line is no entry: its literal never closes. -/
theorem readEntry_takeWhile_entryLine (hv : '\n' ∈ e.2.toList) :
    readEntry ((entryLine e).takeWhile (· ≠ '\n')) = none := by
  obtain ⟨-, -, -, -, -, hb, -⟩ := entryKey_iff.mp hk
  rw [takeWhile_entryLine hk hv, readEntry, splitFirst_append_of_not_mem _ hb]
  simp [readLiteral, readQuoted_escape]

theorem readLines_entryLine (ls : List (List Char)) :
    readLines (entryLine e :: ls) = (readLines ls).map fun r => (e :: r.1, r.2) := by
  have hs : skipped (entryLine e) = false := by
    rw [entryLine_eq]
    exact skipped_of_entryKey hk _
  have hh : readHeader (entryLine e) = none := by
    rw [entryLine_eq]
    exact readHeader_of_entryKey hk _
  exact readLines_entry hs hh (readEntry_entryLine hk) ls

/-- The first piece of the line of a value with a newline makes the whole reading fail. -/
theorem readLines_eq_none_of_cut (hv : '\n' ∈ e.2.toList) {ls : List (List Char)}
    (hl : (entryLine e).takeWhile (· ≠ '\n') ∈ ls) : readLines ls = none := by
  have hs : skipped ((entryLine e).takeWhile (· ≠ '\n')) = false := by
    rw [takeWhile_entryLine hk hv]
    exact skipped_of_entryKey hk _
  have hh : readHeader ((entryLine e).takeWhile (· ≠ '\n')) = none := by
    rw [takeWhile_entryLine hk hv]
    exact readHeader_of_entryKey hk _
  exact readLines_eq_none_of_mem hs hh (readEntry_takeWhile_entryLine hk hv) hl

end EntryKey

-- ============================================================================
-- Reading a native file
-- ============================================================================

/-- The entries of both sections, in the order of the file. -/
def entries (n : NativeFile) : List (String × String) := n.binaries ++ n.builtinOptions

theorem values_eq_map_entries (n : NativeFile) : n.values = n.entries.map Prod.snd := rfl

theorem entryKey_of_mem_entries {n : NativeFile} {e : String × String} (he : e ∈ n.entries) :
    entryKey e.1.toList = true := by
  simp only [entries, binaries, builtinOptions, List.cons_append, List.nil_append, List.mem_cons,
    List.not_mem_nil, or_false] at he
  rcases he with rfl | rfl | rfl | rfl | rfl | rfl | rfl <;> simp [entryKey]

theorem readLines_entries {es : List (String × String)}
    (hk : ∀ e ∈ es, entryKey e.1.toList = true) (ls : List (List Char)) :
    readLines (es.map entryLine ++ ls) = (readLines ls).map fun r => (es ++ r.1, r.2) := by
  induction es with
  | nil => simp
  | cons e es ih =>
    rw [List.map_cons, List.cons_append, readLines_entryLine (hk e (.head _)),
      ih fun e he => hk e (.tail _ he), Option.map_map]
    rfl

/-- Read line by line, the lines of a native file are its two sections, each field under its
key, whatever its fields hold. -/
theorem readLines_renderLines (n : NativeFile) : readLines (renderLines n) = some ([], n.sections) := by
  have hb : ∀ e ∈ n.binaries, entryKey e.1.toList = true := fun e he =>
    entryKey_of_mem_entries (List.mem_append_left _ he)
  have ho : ∀ e ∈ n.builtinOptions, entryKey e.1.toList = true := fun e he =>
    entryKey_of_mem_entries (List.mem_append_right _ he)
  have hbin : readHeader "[binaries]".toList = some "binaries" := by simp [readHeader]
  have hopt : readHeader "[built-in options]".toList = some "built-in options" := by
    simp [readHeader]
  simp only [renderLines, List.append_assoc, List.cons_append, List.nil_append]
  rw [readLines_skipped (by simp [skipped]), readLines_skipped rfl, readLines_header rfl hbin,
    readLines_entries hb, readLines_skipped rfl, readLines_header rfl hopt, readLines_entries ho,
    readLines_skipped rfl]
  rfl

/-- Every line of a native file is one of its fixed lines or the line of one of its entries. -/
theorem mem_renderLines_cases {n : NativeFile} {l : List Char} (hl : l ∈ renderLines n) :
    l ∈ ["# Generated by kiln; do not edit".toList, [], "[binaries]".toList,
      "[built-in options]".toList] ∨ ∃ e ∈ n.entries, entryLine e = l := by
  simp only [renderLines, List.mem_append, List.mem_cons, List.mem_map, List.not_mem_nil,
    or_false] at hl
  rcases hl with (((hl | ⟨e, he, rfl⟩) | hl) | ⟨e, he, rfl⟩) | rfl
  · left
    rcases hl with rfl | rfl | rfl <;> simp
  · exact .inr ⟨e, List.mem_append_left _ he, rfl⟩
  · left
    rcases hl with rfl | rfl <;> simp
  · exact .inr ⟨e, List.mem_append_right _ he, rfl⟩
  · left
    simp

/-- The lines of a native file are free of newlines when its fields are. -/
theorem newline_not_mem_renderLines {n : NativeFile} (h : ∀ v ∈ n.values, '\n' ∉ v.toList) :
    ∀ l ∈ renderLines n, '\n' ∉ l := by
  intro l hl
  rcases mem_renderLines_cases hl with hfixed | ⟨e, he, rfl⟩
  · simp only [List.mem_cons, List.not_mem_nil, or_false] at hfixed
    rcases hfixed with rfl | rfl | rfl | rfl <;> simp
  · rw [newline_mem_entryLine_iff (entryKey_of_mem_entries he)]
    exact h _ (by rw [values_eq_map_entries]; exact List.mem_map_of_mem he)

theorem entryLine_mem_renderLines {n : NativeFile} {e : String × String} (he : e ∈ n.entries) :
    entryLine e ∈ renderLines n := by
  simp only [entries, List.mem_append] at he
  rcases he with he | he <;> simp [renderLines, List.mem_map_of_mem he]

/-- A native file whose fields hold no newline is read back as its two sections. -/
theorem readIni_render_of_newline_free {n : NativeFile} (h : ∀ v ∈ n.values, '\n' ∉ v.toList) :
    readIni n.render = some n.sections := by
  rw [readIni, render_toList,
    List.splitOn_intercalate '\n' (newline_not_mem_renderLines h) (by simp [renderLines]),
    readLines_renderLines]

/-- A native file with a newline in a field is not read at all. -/
theorem readIni_render_of_newline {n : NativeFile} (h : ∃ v ∈ n.values, '\n' ∈ v.toList) :
    readIni n.render = none := by
  obtain ⟨v, hv, hn⟩ := h
  rw [values_eq_map_entries, List.mem_map] at hv
  obtain ⟨e, he, rfl⟩ := hv
  have hcut := takeWhile_mem_splitOn_intercalate '\n' (entryLine_mem_renderLines he)
  rw [← render_toList] at hcut
  rw [readIni, readLines_eq_none_of_cut (entryKey_of_mem_entries he) hn hcut]


/-- A native file is read back as its two sections exactly when no field holds a newline. -/
theorem readIni_render_eq_sections_iff (n : NativeFile) :
    readIni n.render = some n.sections ↔ ∀ v ∈ n.values, '\n' ∉ v.toList := by
  constructor
  · intro h v hv hn
    rw [readIni_render_of_newline ⟨v, hv, hn⟩] at h
    cases h
  · exact readIni_render_of_newline_free

-- ============================================================================
-- The native file of a build
-- ============================================================================

theorem newline_mem_compilerBinaries_iff (s : Settings) :
    ('\n' ∈ s.compilerBinaries.1.toList ∨ '\n' ∈ s.compilerBinaries.2.toList) ↔
      '\n' ∈ s.compiler.toList := by
  unfold Settings.compilerBinaries
  split_ifs with hgcc hclang hmsvc
  · simp [hgcc]
  · rcases hclang with h | h <;> simp [h]
  · simp [hmsvc]
  · simp

/-- The fields of a build's native file are free of newlines exactly when its compiler name
is: every other field is one of a few fixed words. -/
theorem newline_free_ofConfig_iff (s : Settings) (o : BuildOptions) :
    (∀ v ∈ (ofConfig s o).values, '\n' ∉ v.toList) ↔ '\n' ∉ s.compiler.toList := by
  have hb : '\n' ∉ s.buildType.mesonName.toList := by
    cases s.buildType <;> simp [BuildType.mesonName]
  have hl : '\n' ∉ (if o.shared then "shared" else "static").toList := by
    split <;> simp
  rw [← newline_mem_compilerBinaries_iff]
  simp [values, ofConfig, hb, hl]

theorem lookup_defaultLibrary_ofConfig (s : Settings) (o : BuildOptions) :
    (((ofConfig s o).sections.lookup "built-in options").bind (List.lookup "default_library")) =
      some (if o.shared then "shared" else "static") := by
  simp [sections, builtinOptions, ofConfig, List.lookup_cons]

/-- A native file is read back as its two sections, with every field under its key, exactly
when no field holds a newline, and is not read at all otherwise. The native file of a build is
read back exactly when its compiler name holds no newline, and its `default_library` is then
read as `shared` exactly when the build is shared. -/
theorem readIni_render_iff_newline_free (n : NativeFile) (s : Settings) (o : BuildOptions) :
    (readIni n.render = some n.sections ↔ ∀ v ∈ n.values, '\n' ∉ v.toList) ∧
    ((∃ v ∈ n.values, '\n' ∈ v.toList) → readIni n.render = none) ∧
    (readIni (ofConfig s o).render = some (ofConfig s o).sections ↔
      '\n' ∉ s.compiler.toList) ∧
    ((∃ secs, readIni (ofConfig s o).render = some secs ∧
        (secs.lookup "built-in options").bind (List.lookup "default_library") = some "shared") ↔
      o.shared = true ∧ '\n' ∉ s.compiler.toList) := by
  have hbuild : readIni (ofConfig s o).render = some (ofConfig s o).sections ↔
      '\n' ∉ s.compiler.toList := by
    rw [readIni_render_eq_sections_iff, newline_free_ofConfig_iff]
  refine ⟨readIni_render_eq_sections_iff n, readIni_render_of_newline, hbuild, ?_⟩
  constructor
  · rintro ⟨secs, hr, hd⟩
    -- a compiler name with a newline leaves nothing to look up
    have hfree : '\n' ∉ s.compiler.toList := by
      intro hn
      have hfault : ∃ v ∈ (ofConfig s o).values, '\n' ∈ v.toList := by
        by_contra hno
        exact (newline_free_ofConfig_iff s o).mp (fun v hv hv' => hno ⟨v, hv, hv'⟩) hn
      rw [readIni_render_of_newline hfault] at hr
      cases hr
    rw [hbuild.mpr hfree, Option.some_inj] at hr
    subst hr
    rw [lookup_defaultLibrary_ofConfig] at hd
    refine ⟨?_, hfree⟩
    cases hs : o.shared
    · simp [hs] at hd
    · rfl
  · rintro ⟨hs, hfree⟩
    exact ⟨_, hbuild.mpr hfree, by rw [lookup_defaultLibrary_ofConfig, hs]; rfl⟩

end NativeFile

end BuildRecipe
