import BuildRecipe.Consumer
import BuildRecipe.Proofs.PkgConfig.Lines
import Mathlib.Data.List.Nodup
/-!
# The pkg-config file of a package

The pkg-config file of a package is meant to consist of the lines `ConsumerInfo.pcLines`:
`prefix`, a variable for each library directory and for each include directory, a blank line,
and the keyword lines `Name`, `Description`, `Version`, `Libs` and `Cflags`. These lines define
pairwise distinct variables before the keyword lines, hold each keyword once and describe the
package (`describes_pcLines`), and every variable they refer to is defined before, as long as no
text of the package brings a `$` of its own (`undefinedReferences_pcLines`).

The texts of the package are written as they are, so the file reads as these lines exactly when
no text of the package holds a newline (`readLines_pkgConfig_eq_iff`); a newline in the name
adds keyword lines of its own (`pkgConfig_name_with_newline`).

Main statement: `pkgConfig_describes_package`.
-/

namespace BuildRecipe

namespace ConsumerInfo

-- ============================================================================
-- The lines of a package's pkg-config file
-- ============================================================================

/-- The value of `prefix`: two folders above the file's own folder. -/
def prefixValue : String := "$\x7bpcfiledir\x7d/../.."

/-- The variables of some directories: the `i`-th is the name with `suffix i` after it, and
stands for the directory under the prefix. -/
def directoryVariables (name : String) (dirs : List String) : List (String × String) :=
  dirs.mapIdx fun i d => (name ++ suffix i, "$\x7bprefix\x7d/" ++ d)

/-- The variables a package's pkg-config file defines: `prefix`, then one for each library
directory, then one for each include directory. -/
def pcVariables (info : ConsumerInfo) : List (String × String) :=
  ("prefix", prefixValue) :: directoryVariables "libdir" info.libdirs ++
    directoryVariables "includedir" info.includedirs

/-- The flags to link with: a `-L` flag for each library directory, then a `-l` flag for each
library. -/
def libsValue (info : ConsumerInfo) : String :=
  " ".intercalate ((List.range info.libdirs.length).map (fun i => "-L$\x7blibdir" ++ suffix i ++ "\x7d") ++
    info.libs.map ("-l" ++ ·))

/-- The flags to compile with: a `-I` flag for each include directory. -/
def cflagsValue (info : ConsumerInfo) : String :=
  " ".intercalate ((List.range info.includedirs.length).map fun i => "-I$\x7bincludedir" ++ suffix i ++ "\x7d")

/-- The keyword lines of a package's pkg-config file, in order. -/
def pcKeywords (info : ConsumerInfo) (p : Package) : List (String × String) :=
  [("Name", p.name), ("Description", p.description.getD p.name), ("Version", p.version),
    ("Libs", info.libsValue), ("Cflags", info.cflagsValue)]

/-- The lines a package's pkg-config file is meant to consist of: its variables, a blank line and
its keyword lines. -/
def pcLines (info : ConsumerInfo) (p : Package) : List PkgConfig.Line :=
  info.pcVariables.map (fun v => .definition v.1 v.2) ++
    .blank :: (info.pcKeywords p).map fun k => .field k.1 k.2

/-- The texts the file takes from the package and the consumer information: the package's name,
description and version, the libraries and the directories. -/
def texts (info : ConsumerInfo) (p : Package) : List String :=
  p.name :: p.description.toList ++ p.version :: info.libs ++ info.libdirs ++ info.includedirs

-- ============================================================================
-- Variable names
-- ============================================================================

theorem isDigit_of_mem_suffix {i : Nat} {c : Char} (h : c ∈ (suffix i).toList) : c.isDigit = true := by
  unfold suffix at h
  split at h
  · simp at h
  · rw [Nat.toList_repr] at h
    exact Nat.isDigit_of_mem_toDigits (by decide) (by decide) h

/-- Different directories get different suffixes: none for the first, the index after. -/
theorem suffix_injective : Function.Injective suffix := by
  intro i j h
  unfold suffix at h
  split_ifs at h with hi hj hj
  · omega
  · exact absurd h.symm Nat.repr_ne_empty
  · exact absurd h Nat.repr_ne_empty
  · -- the digits of an index give it back
    have hdigits := congrArg String.toList h
    rw [Nat.toList_repr, Nat.toList_repr] at hdigits
    rw [← Nat.ofDigitChars_ten_toDigits (n := i), hdigits, Nat.ofDigitChars_ten_toDigits]

theorem isName_variable {name : String} (h : PkgConfig.IsName name) (i : Nat) :
    PkgConfig.IsName (name ++ suffix i) := by
  refine ⟨by simp [String.toList_append, h.1], fun c hc => ?_⟩
  rw [String.toList_append, List.mem_append] at hc
  rcases hc with hc | hc
  · exact h.2 c hc
  · simp [PkgConfig.isNameChar, Char.isAlphanum, isDigit_of_mem_suffix hc]

theorem map_mapIdx {α β γ : Type} (l : List α) (f : Nat → α → β) (g : β → γ) :
    (l.mapIdx f).map g = l.mapIdx fun i a => g (f i a) :=
  List.ext_getElem (by simp) fun i h₁ h₂ => by simp

theorem zip_range_map_eq_mapIdx {β : Type} (l : List String) (f : Nat × String → β) :
    ((List.range l.length).zip l).map f = l.mapIdx fun i d => f (i, d) := by
  refine List.ext_getElem (by simp) fun i h₁ h₂ => ?_
  simp

theorem definitions_toList (name : String) (dirs : List String) :
    (definitions name dirs).toList =
      PkgConfig.render ((directoryVariables name dirs).map fun v => .definition v.1 v.2) := by
  rw [definitions, String.toList_join, List.flatMap_def, List.map_map, zip_range_map_eq_mapIdx,
    directoryVariables, PkgConfig.render, map_mapIdx]
  simp [PkgConfig.Line.text, String.toList_append, map_mapIdx]

theorem map_fst_directoryVariables (name : String) (dirs : List String) :
    (directoryVariables name dirs).map Prod.fst = (List.range dirs.length).map (name ++ suffix ·) :=
  List.ext_getElem (by simp [directoryVariables]) fun i h₁ h₂ => by simp [directoryVariables]

theorem map_snd_directoryVariables (name : String) (dirs : List String) :
    (directoryVariables name dirs).map Prod.snd = dirs.map ("$\x7bprefix\x7d/" ++ ·) :=
  List.ext_getElem (by simp [directoryVariables]) fun i h₁ h₂ => by simp [directoryVariables]

/-- The names of the variables: `prefix`, then `libdir` and `includedir` with their suffixes. -/
theorem map_fst_pcVariables (info : ConsumerInfo) :
    info.pcVariables.map Prod.fst = "prefix" :: (List.range info.libdirs.length).map ("libdir" ++ suffix ·) ++
      (List.range info.includedirs.length).map ("includedir" ++ suffix ·) := by
  simp [pcVariables, map_fst_directoryVariables]

theorem isName_of_mem_pcVariables {info : ConsumerInfo} {v : String × String}
    (h : v ∈ info.pcVariables) : PkgConfig.IsName v.1 := by
  have hv : v.1 ∈ info.pcVariables.map Prod.fst := List.mem_map_of_mem h
  rw [map_fst_pcVariables] at hv
  simp only [List.mem_cons, List.mem_append, List.mem_map, List.mem_range] at hv
  rcases hv with (hv | ⟨i, -, hi⟩) | ⟨i, -, hi⟩
  · rw [hv]
    exact ⟨by simp, by simp [PkgConfig.isNameChar]⟩
  · rw [← hi]
    exact isName_variable ⟨by simp, by simp [PkgConfig.isNameChar]⟩ i
  · rw [← hi]
    exact isName_variable ⟨by simp, by simp [PkgConfig.isNameChar]⟩ i

/-- Every line of a package's pkg-config file is read back from its text. -/
theorem readable_pcLines (info : ConsumerInfo) (p : Package) :
    ∀ l ∈ info.pcLines p, l.Readable := by
  intro l hl
  simp only [pcLines, List.mem_append, List.mem_map, List.mem_cons] at hl
  rcases hl with ⟨v, hv, rfl⟩ | rfl | ⟨k, hk, rfl⟩
  · exact isName_of_mem_pcVariables hv
  · trivial
  · simp only [pcKeywords, List.mem_cons, List.not_mem_nil, or_false] at hk
    rcases hk with rfl | rfl | rfl | rfl | rfl <;>
      exact ⟨by simp, by simp [PkgConfig.isNameChar]⟩

-- ============================================================================
-- Newlines
-- ============================================================================

/-- A character other than those of the separator stands in texts joined by it exactly when it
stands in one of them. -/
theorem mem_intercalate_of_not_mem_sep {sep : List Char} {c : Char} (hc : c ∉ sep) :
    ∀ {xs : List (List Char)}, c ∈ sep.intercalate xs ↔ ∃ x ∈ xs, c ∈ x
  | [] => by simp
  | [x] => by simp
  | x :: y :: zs => by
    rw [List.intercalate_cons_cons, List.mem_append, List.mem_append,
      mem_intercalate_of_not_mem_sep hc]
    simp [hc]

/-- A suffix holds digits only. -/
theorem not_mem_suffix {c : Char} (hc : c.isDigit = false) (i : Nat) : c ∉ (suffix i).toList :=
  fun h => by simp [isDigit_of_mem_suffix h] at hc

theorem newline_mem_libsValue_iff (info : ConsumerInfo) :
    '\n' ∈ info.libsValue.toList ↔ ∃ lib ∈ info.libs, '\n' ∈ lib.toList := by
  rw [libsValue, String.toList_intercalate, mem_intercalate_of_not_mem_sep (by simp)]
  constructor
  · rintro ⟨x, hx, hn⟩
    simp only [List.map_append, List.map_map, List.mem_append, List.mem_map, Function.comp_apply] at hx
    rcases hx with ⟨i, -, rfl⟩ | ⟨lib, hlib, rfl⟩
    · simp [String.toList_append, not_mem_suffix (c := '\n') rfl] at hn
    · exact ⟨lib, hlib, by simpa [String.toList_append] using hn⟩
  · rintro ⟨lib, hlib, hn⟩
    exact ⟨("-l" ++ lib).toList,
      List.mem_map_of_mem (List.mem_append_right _ (List.mem_map_of_mem hlib)),
      by simp [String.toList_append, hn]⟩

theorem newline_not_mem_cflagsValue (info : ConsumerInfo) : '\n' ∉ info.cflagsValue.toList := by
  rw [cflagsValue, String.toList_intercalate, mem_intercalate_of_not_mem_sep (by simp)]
  simp [String.toList_append, not_mem_suffix (c := '\n') rfl]

theorem map_value_pcLines (info : ConsumerInfo) (p : Package) :
    (info.pcLines p).map PkgConfig.Line.value =
      info.pcVariables.map Prod.snd ++ "" :: (info.pcKeywords p).map Prod.snd := by
  simp [pcLines, PkgConfig.Line.value, Function.comp_def]

/-- The values of the lines of a package's pkg-config file hold no newline exactly when the
texts of the package hold none: every other part of a value is fixed text or a suffix. -/
theorem newline_free_values_iff (info : ConsumerInfo) (p : Package) :
    (∀ l ∈ info.pcLines p, '\n' ∉ l.value.toList) ↔ ∀ s ∈ info.texts p, '\n' ∉ s.toList := by
  rw [← List.forall_mem_map (P := fun v : String => '\n' ∉ v.toList), map_value_pcLines]
  simp only [pcVariables, pcKeywords, texts, List.map_cons, List.map_append, List.map_nil,
    map_snd_directoryVariables, List.forall_mem_cons, List.forall_mem_append, List.forall_mem_map]
  simp only [newline_mem_libsValue_iff, newline_not_mem_cflagsValue]
  -- the description line repeats the name when there is no description
  cases p.description <;> simp [prefixValue, String.toList_append] <;> tauto

/-- The text of a package's pkg-config file is its lines, each ended by a newline. -/
theorem pkgConfig_toList (info : ConsumerInfo) (p : Package) :
    (info.pkgConfig p).toList = PkgConfig.render (info.pcLines p) := by
  unfold pkgConfig pcLines pcVariables pcKeywords
  dsimp only
  simp only [String.toList_append, definitions_toList, List.map_cons, List.map_append, List.map_nil,
    PkgConfig.render_append, PkgConfig.render_cons, PkgConfig.render_nil]
  simp [PkgConfig.Line.text, prefixValue, libsValue, cflagsValue, String.toList_append]

/-- A package's pkg-config file reads as its lines exactly when no text of the package holds a
newline. -/
theorem readLines_pkgConfig_eq_iff (info : ConsumerInfo) (p : Package) :
    PkgConfig.readLines (info.pkgConfig p) = info.pcLines p ↔ ∀ s ∈ info.texts p, '\n' ∉ s.toList := by
  rw [← newline_free_values_iff]
  constructor
  · intro h l hl
    exact PkgConfig.newline_not_mem_value (h ▸ hl)
  · exact PkgConfig.readLines_render (pkgConfig_toList info p) (readable_pcLines info p)

-- ============================================================================
-- What the lines describe
-- ============================================================================

/-- Lines that describe a package to pkg-config: they define `prefix` and a variable for each
library directory and for each include directory, under pairwise distinct names and before any
keyword line, and have one keyword line each for the package's name, description and version and
for the flags to link and to compile with. -/
structure Describes (ls : List PkgConfig.Line) (info : ConsumerInfo) (p : Package) : Prop where
  defines : PkgConfig.definedVariables ls = info.pcVariables
  distinct : ((PkgConfig.definedVariables ls).map Prod.fst).Nodup
  keywords : PkgConfig.keywords ls = info.pcKeywords p
  ordered : ∃ pre post, ls = pre ++ post ∧ (∀ l ∈ pre, l.field? = none) ∧
    ∀ l ∈ post, l.definition? = none

theorem ne_of_head?_ne {a b : String} (h : a.toList.head? ≠ b.toList.head?) : a ≠ b :=
  fun e => h (e ▸ rfl)

theorem append_suffix_injective (name : String) : Function.Injective (name ++ suffix ·) := by
  intro i j h
  apply suffix_injective
  simpa [String.ext_iff, String.toList_append] using h

/-- The variables of a package's pkg-config file have pairwise distinct names: `prefix`, and
`libdir` and `includedir` each with distinct suffixes. -/
theorem nodup_pcVariables (info : ConsumerInfo) : (info.pcVariables.map Prod.fst).Nodup := by
  rw [map_fst_pcVariables, List.cons_append, List.nodup_cons, List.nodup_append]
  refine ⟨?_, List.nodup_range.map (append_suffix_injective _),
    List.nodup_range.map (append_suffix_injective _), ?_⟩
  · -- the names are told apart by their first letters
    simp only [List.mem_append, List.mem_map, not_or, not_exists, not_and]
    exact ⟨fun i _ h => ne_of_head?_ne (by simp [String.toList_append]) h.symm,
      fun i _ h => ne_of_head?_ne (by simp [String.toList_append]) h.symm⟩
  · intro a ha b hb
    simp only [List.mem_map] at ha hb
    obtain ⟨i, -, rfl⟩ := ha
    obtain ⟨j, -, rfl⟩ := hb
    exact ne_of_head?_ne (by simp [String.toList_append])

theorem definedVariables_pcLines (info : ConsumerInfo) (p : Package) :
    PkgConfig.definedVariables (info.pcLines p) = info.pcVariables := by
  simp [pcLines]

theorem keywords_pcLines (info : ConsumerInfo) (p : Package) :
    PkgConfig.keywords (info.pcLines p) = info.pcKeywords p := by
  simp [pcLines]

/-- The lines of a package's pkg-config file describe the package. -/
theorem describes_pcLines (info : ConsumerInfo) (p : Package) : Describes (info.pcLines p) info p where
  defines := definedVariables_pcLines info p
  distinct := by
    rw [definedVariables_pcLines]
    exact nodup_pcVariables info
  keywords := keywords_pcLines info p
  ordered := by
    refine ⟨_, _, rfl, ?_, ?_⟩
    · simp only [List.forall_mem_map]
      exact fun _ _ => rfl
    · simp only [List.forall_mem_cons, List.forall_mem_map]
      exact ⟨rfl, fun _ _ => rfl⟩

-- ============================================================================
-- References in the lines
-- ============================================================================

theorem references_prefixValue : PkgConfig.references prefixValue = ["pcfiledir"] := by
  have htext : prefixValue.toList = PkgConfig.referenceText "pcfiledir" ++ "/../..".toList := by
    simp [prefixValue, PkgConfig.referenceText]
  rw [PkgConfig.references, htext, PkgConfig.scanReferences_referenceText_append (by simp),
    PkgConfig.scanReferences_of_not_mem (by simp)]

theorem references_directory {d : String} (h : '$' ∉ d.toList) :
    PkgConfig.references ("$\x7bprefix\x7d/" ++ d) = ["prefix"] := by
  have htext : ("$\x7bprefix\x7d/" ++ d).toList = PkgConfig.referenceText "prefix" ++ '/' :: d.toList := by
    simp [PkgConfig.referenceText, String.toList_append]
  rw [PkgConfig.references, htext, PkgConfig.scanReferences_referenceText_append (by simp),
    PkgConfig.scanReferences_of_not_mem (by simpa using h)]

/-- A flag that names a variable: fixed text without `$`, then a reference. -/
theorem scanReferences_flag {flag : List Char} (hflag : '$' ∉ flag) {name : String}
    (hname : '\x7d' ∉ name.toList) :
    PkgConfig.Closed (flag ++ PkgConfig.referenceText name) ∧
      PkgConfig.scanReferences none (flag ++ PkgConfig.referenceText name) = [name] := by
  refine ⟨(PkgConfig.closed_of_not_mem hflag).append (PkgConfig.closed_referenceText hname), ?_⟩
  rw [PkgConfig.scanReferences_append_of_not_mem hflag, PkgConfig.scanReferences_referenceText hname]

theorem closeBrace_not_mem_variable (name : String) (hname : '\x7d' ∉ name.toList) (i : Nat) :
    '\x7d' ∉ (name ++ suffix i).toList := by
  simp [String.toList_append, hname, not_mem_suffix (c := '\x7d') rfl]

/-- Flags joined by blanks, the `i`-th of the first `n` naming the variable `var i` and the rest
without `$`, refer to the `n` variables in order. -/
theorem references_flags {n : Nat} {flag : Nat → String} {var : Nat → String}
    (hflag : ∀ i, ∃ pre, '$' ∉ pre ∧ (flag i).toList = pre ++ PkgConfig.referenceText (var i))
    (hvar : ∀ i, '\x7d' ∉ (var i).toList) {rest : List String} (hrest : ∀ x ∈ rest, '$' ∉ x.toList) :
    PkgConfig.references (" ".intercalate ((List.range n).map flag ++ rest)) = (List.range n).map var := by
  have hnamed : ∀ i, PkgConfig.Closed (flag i).toList ∧
      PkgConfig.scanReferences none (flag i).toList = [var i] := fun i => by
    obtain ⟨pre, hpre, htext⟩ := hflag i
    rw [htext]
    exact scanReferences_flag hpre (hvar i)
  have hclosed : ∀ x ∈ ((List.range n).map flag ++ rest).map String.toList, PkgConfig.Closed x := by
    simp only [List.map_append, List.map_map, List.mem_append, List.mem_map, Function.comp_apply]
    rintro x (⟨i, -, rfl⟩ | ⟨y, hy, rfl⟩)
    · exact (hnamed i).1
    · exact PkgConfig.closed_of_not_mem (hrest y hy)
  have hnone : rest.flatMap (fun x => PkgConfig.scanReferences none x.toList) = [] :=
    List.flatMap_eq_nil_iff.mpr fun x hx => PkgConfig.scanReferences_of_not_mem (hrest x hx)
  rw [PkgConfig.references, String.toList_intercalate,
    (PkgConfig.scanReferences_intercalate (by simp) hclosed).2]
  simp only [List.map_append, List.map_map, List.flatMap_append, List.flatMap_map, Function.comp_apply,
    fun i => (hnamed i).2, hnone, List.append_nil]
  exact (List.flatMap_map _ (fun x => [x]) _).symm.trans (List.flatMap_singleton' _)

/-- The `Libs` line refers to the variable of each library directory, in order. -/
theorem references_libsValue {info : ConsumerInfo} (h : ∀ lib ∈ info.libs, '$' ∉ lib.toList) :
    PkgConfig.references info.libsValue = (List.range info.libdirs.length).map ("libdir" ++ suffix ·) := by
  refine references_flags (fun i => ⟨"-L".toList, by simp, ?_⟩)
    (closeBrace_not_mem_variable "libdir" (by simp)) ?_
  · simp [PkgConfig.referenceText, String.toList_append]
  · simp only [List.mem_map]
    rintro x ⟨lib, hl, rfl⟩
    simpa [String.toList_append] using h lib hl

/-- The `Cflags` line refers to the variable of each include directory, in order. -/
theorem references_cflagsValue (info : ConsumerInfo) :
    PkgConfig.references info.cflagsValue =
      (List.range info.includedirs.length).map ("includedir" ++ suffix ·) := by
  rw [cflagsValue, ← List.append_nil ((List.range _).map _)]
  refine references_flags (fun i => ⟨"-I".toList, by simp, ?_⟩)
    (closeBrace_not_mem_variable "includedir" (by simp)) (by simp)
  simp [PkgConfig.referenceText, String.toList_append]

theorem mem_directoryVariables_value {name : String} {dirs : List String} {v : String × String}
    (h : v ∈ directoryVariables name dirs) : ∃ d ∈ dirs, v.2 = "$\x7bprefix\x7d/" ++ d := by
  have hv : v.2 ∈ (directoryVariables name dirs).map Prod.snd := List.mem_map_of_mem h
  rw [map_snd_directoryVariables] at hv
  obtain ⟨d, hd, hv⟩ := List.mem_map.mp hv
  exact ⟨d, hd, hv.symm⟩

/-- A directory's variable refers to `prefix` only. -/
theorem references_of_mem_directoryVariables {name : String} {dirs : List String}
    (hd : ∀ d ∈ dirs, '$' ∉ d.toList) {v : String × String} (h : v ∈ directoryVariables name dirs) :
    PkgConfig.references v.2 = ["prefix"] := by
  obtain ⟨d, hd', hval⟩ := mem_directoryVariables_value h
  rw [hval, references_directory (hd d hd')]

/-- The keyword lines refer only to variables of the file, as long as no text of the package
holds a `$`: the texts bring no reference, and the flags refer to the directories' variables. -/
theorem mem_pcVariables_of_references {info : ConsumerInfo} {p : Package}
    (h : ∀ s ∈ info.texts p, '$' ∉ s.toList) {k : String × String} (hk : k ∈ info.pcKeywords p)
    {v : String} (hv : v ∈ PkgConfig.references k.2) : v ∈ info.pcVariables.map Prod.fst := by
  have hfree : ∀ s ∈ info.texts p, PkgConfig.references s = [] := fun s hs =>
    PkgConfig.scanReferences_of_not_mem (h s hs)
  rw [map_fst_pcVariables]
  simp only [pcKeywords, List.mem_cons, List.not_mem_nil, or_false] at hk
  rcases hk with rfl | rfl | rfl | rfl | rfl
  · simp [hfree p.name (by simp [texts])] at hv
  · -- the description line repeats the name when there is no description
    have hdesc : p.description.getD p.name ∈ info.texts p := by
      cases hd : p.description <;> simp [texts, hd]
    simp [hfree _ hdesc] at hv
  · simp [hfree p.version (by simp [texts])] at hv
  · rw [references_libsValue fun lib hl => h lib (by simp [texts, hl])] at hv
    exact List.mem_cons_of_mem _ (List.mem_append_left _ hv)
  · rw [references_cflagsValue] at hv
    exact List.mem_cons_of_mem _ (List.mem_append_right _ hv)

/-- Every variable the lines of a package's pkg-config file refer to is `pcfiledir` or defined
on an earlier line, as long as no text of the package holds a `$`: `prefix` refers to
`pcfiledir`, a directory to `prefix`, and the keyword lines, after every definition, to the
directories' variables. -/
theorem undefinedReferences_pcLines (info : ConsumerInfo) (p : Package)
    (h : ∀ s ∈ info.texts p, '$' ∉ s.toList) :
    PkgConfig.undefinedReferences ["pcfiledir"] (info.pcLines p) = [] := by
  have hdirs : ∀ d ∈ info.libdirs ++ info.includedirs, '$' ∉ d.toList := fun d hd =>
    h d (by simp only [texts, List.mem_cons, List.mem_append] at hd ⊢; tauto)
  have hvars : PkgConfig.undefinedReferences ["pcfiledir"]
      (info.pcVariables.map fun v => .definition v.1 v.2) = [] := by
    rw [pcVariables, List.cons_append, List.map_cons, PkgConfig.undefinedReferences,
      PkgConfig.undefinedReferences_eq_nil]
    · simp [PkgConfig.Line.references, references_prefixValue]
    · simp only [List.forall_mem_map, List.mem_append]
      -- each directory refers to `prefix`, defined on the first line
      rintro v (hv | hv) x hx <;>
        simp only [PkgConfig.Line.references, List.mem_singleton,
          references_of_mem_directoryVariables (fun d hd => hdirs d (by simp [hd])) hv] at hx <;>
        simp [hx, PkgConfig.Line.defined, PkgConfig.Line.definition?]
  have hkeys : PkgConfig.undefinedReferences (["pcfiledir"] ++ info.pcVariables.map Prod.fst)
      (.blank :: (info.pcKeywords p).map fun k => .field k.1 k.2) = [] := by
    refine PkgConfig.undefinedReferences_eq_nil ?_
    simp only [List.forall_mem_cons, List.forall_mem_map]
    exact ⟨by simp [PkgConfig.Line.references],
      fun k hk v hv => List.mem_append_right _ (mem_pcVariables_of_references h hk hv)⟩
  rw [pcLines, PkgConfig.undefinedReferences_append, PkgConfig.flatMap_defined_map_definition, hvars, hkeys,
    List.append_nil]

-- ============================================================================
-- The file of a package
-- ============================================================================

/-- Read line by line, the pkg-config file of a package is exactly its lines when no text of the
package holds a newline, and only then. It then describes the package: `prefix` and a variable
for each library and include directory, under distinct names and before the keyword lines, and
one keyword line each for the name, the description (the name when there is none), the version
and the flags. When no text holds a `$` either, every variable the file refers to is `pcfiledir`
or defined on an earlier line. -/
theorem pkgConfig_describes_package (info : ConsumerInfo) (p : Package) :
    (PkgConfig.readLines (info.pkgConfig p) = info.pcLines p ↔ ∀ s ∈ info.texts p, '\n' ∉ s.toList) ∧
    ((∀ s ∈ info.texts p, '\n' ∉ s.toList) →
      Describes (PkgConfig.readLines (info.pkgConfig p)) info p) ∧
    ((∀ s ∈ info.texts p, '\n' ∉ s.toList ∧ '$' ∉ s.toList) →
      PkgConfig.undefinedReferences ["pcfiledir"] (PkgConfig.readLines (info.pkgConfig p)) = []) := by
  refine ⟨readLines_pkgConfig_eq_iff info p, fun h => ?_, fun h => ?_⟩
  · rw [(readLines_pkgConfig_eq_iff info p).mpr h]
    exact describes_pcLines info p
  · rw [(readLines_pkgConfig_eq_iff info p).mpr fun s hs => (h s hs).1]
    exact undefinedReferences_pcLines info p fun s hs => (h s hs).2

/-- The Fossil Media package, as its recipe describes it. -/
def fossilMediaPackage : Package where
  name := "fossil_media"
  version := "0.1.1"
  url := "https://github.com/fossillogic/fossil-media"
  description := some "Fossil Media is a lightweight, portable data parsing and processing library written in pure C with zero external dependencies."

theorem fossilMedia_pkgConfig_describes :
    (∀ s ∈ (describe fossilMediaPackage).texts fossilMediaPackage, '\n' ∉ s.toList ∧ '$' ∉ s.toList) ∧
      Describes (PkgConfig.readLines ((describe fossilMediaPackage).pkgConfig fossilMediaPackage))
        (describe fossilMediaPackage) fossilMediaPackage ∧
      PkgConfig.undefinedReferences ["pcfiledir"]
        (PkgConfig.readLines ((describe fossilMediaPackage).pkgConfig fossilMediaPackage)) = [] := by
  have h : ∀ s ∈ (describe fossilMediaPackage).texts fossilMediaPackage,
      '\n' ∉ s.toList ∧ '$' ∉ s.toList := by
    simp [texts, describe, fossilMediaPackage]
  exact ⟨h, (pkgConfig_describes_package _ _).2.1 fun s hs => (h s hs).1,
    (pkgConfig_describes_package _ _).2.2 h⟩

/-- A package whose name holds a newline and a keyword line of its own. -/
def newlineNamePackage : Package where
  name := "fm\nName: other"
  version := "1.0.0"
  url := "https://example.org/fm"

/-- The name is written as it is, so its newline adds a `Name` line wherever the name stands:
four in all. -/
theorem pkgConfig_name_with_newline :
    PkgConfig.keywords (PkgConfig.readLines ((describe newlineNamePackage).pkgConfig newlineNamePackage)) =
      [("Name", "fm"), ("Name", "other"), ("Description", "fm"), ("Name", "other"),
        ("Version", "1.0.0"), ("Libs", "-L$\x7blibdir\x7d -lfm"), ("Name", "other"),
        ("Cflags", "-I$\x7bincludedir\x7d")] := by
  decide +kernel

end ConsumerInfo

end BuildRecipe
