import BuildRecipe.Utility.Text
import BuildRecipe.Text.Regex
import BuildRecipe.FileTree.Walk
/-!
# Searching lines

`grep [options] PATTERNS [file…]` writes the lines of its inputs that match any of the patterns
(`-e` may give several, and a pattern with newlines is one pattern a line). Patterns are basic
regular expressions, extended with `-E`, fixed strings with `-F` (`Regex`).

* `-i` ignores case, `-v` selects the lines that do not match, `-w` and `-x` ask the match to
  be a whole word or the whole line.
* Each line is written after the input's name when there are several operands or the files
  below a directory are searched (or `-H`), its number with `-n`, and its byte offset with
  `-b`; `-o` writes each match alone. `-A`, `-B` and `-C` add lines of context, marked with
  `-` where selected lines have `:`, each group set off by `--`.
* `-c` writes counts, `-l` and `-L` the names of the inputs with and without a selected line,
  `-q` nothing; `-m N` stops after N selected lines; `-r` searches the files below directories.
* An input holding a NUL byte is binary: its selected lines are not written, only the notice
  that it matches.

It ends with 0 when a line was selected, 1 when none was, and 2 after an error, unless `-q`
found a line.

Main statement: a fixed string selects exactly the lines that hold it (`lineMatches_fixed`).
-/

namespace BuildRecipe.Utilities

/-- How `grep` matches: a list of patterns of one kind. -/
inductive Matcher where
  | regexes (rs : List Regex.Compiled)
  | fixed (texts : List (List Char)) (icase : Bool)
  deriving Repr, Inhabited

/-- The spans a fixed string matches in a line, from a position on: the first occurrence. -/
def fixedAt (icase : Bool) (line : Array Char) (text : List Char) (from_ : Nat) :
    Option (Nat × Nat) :=
  let n := text.length
  ((List.range (line.size + 1 - min (line.size + 1) (from_ + n))).map (· + from_)).findSome? fun i =>
    let same := text.zipIdx.all fun (c, j) => Regex.fold icase (line.getD (i + j) ' ') == Regex.fold icase c
    if same then some (i, i + n) else none

/-- Whether a span of a line is a whole word: no word byte just before or after it. -/
def wholeWord (line : Array Char) (a b : Nat) : Bool :=
  (a == 0 || !Regex.isWordByte (line.getD (a - 1) ' ')) &&
    (b ≥ line.size || !Regex.isWordByte (line.getD b ' '))

/-- The first match of one pattern at or after a position that the whole-word or whole-line
test accepts: the leftmost such start, the longest end there. -/
def patternMatch (m : Matcher) (word whole : Bool) (line : Array Char) (from_ : Nat) :
    Option (Nat × Nat) :=
  let accept (a b : Nat) : Bool :=
    (!whole || (a == 0 && b == line.size)) && (!word || wholeWord line a b)
  match m with
  | .fixed texts icase =>
    let starts := (List.range (line.size + 1 - min (line.size + 1) from_)).map (· + from_)
    starts.findSome? fun i =>
      let ends := texts.filterMap fun t =>
        match fixedAt icase line t i with
        | some (a, b) => if a == i && accept a b then some b else none
        | none => none
      (ends.foldl (fun best e => match best with
        | some b => some (max b e)
        | none => some e) none).map fun e => (i, e)
  | .regexes rs =>
    let starts := (List.range (line.size + 1 - min (line.size + 1) from_)).map (· + from_)
    starts.findSome? fun i =>
      let ends := rs.flatMap fun r =>
        let fuel := 16 * (line.size + 4) * (r.groups + 4) + 64
        (Regex.matchHere line r.icase fuel r.pattern i [] fun e cs => [(e, cs)]).filterMap fun (e, _) =>
          if accept i e then some e else none
      (ends.foldl (fun best e => match best with
        | some b => some (max b e)
        | none => some e) none).map fun e => (i, e)

/-- Whether a line matches. -/
def lineMatches (m : Matcher) (word whole : Bool) (line : List Char) : Bool :=
  (patternMatch m word whole line.toArray 0).isSome

/-- The non-empty matches of a line, left to right, with where each starts, as `-o` writes
them. -/
def lineMatchTexts (m : Matcher) (word whole : Bool) (line : List Char) : List (Nat × List Char) :=
  let arr := line.toArray
  let rec go : Nat → Nat → List (Nat × List Char)
    | 0, _ => []
    | fuel + 1, pos =>
      if pos > arr.size then []
      else match patternMatch m word whole arr pos with
        | none => []
        | some (a, b) =>
          if b == a then go fuel (a + 1)
          else (a, (line.drop a).take (b - a)) :: go fuel b
  go (arr.size + 2) 0

/-- How `grep` is asked to work. -/
structure GrepStyle where
  matcher : Matcher
  invert : Bool
  word : Bool
  whole : Bool
  count : Bool
  listMatching : Bool
  listMissing : Bool
  quiet : Bool
  silent : Bool
  onlyMatching : Bool
  names : Bool
  numbers : Bool
  offsets : Bool
  maxCount : Option Nat
  after : Nat
  before : Nat
  text : Bool

/-- A line of an input: its text, its number from 1, and its byte offset. -/
structure InputLine where
  text : List Char
  number : Nat
  offset : Nat

/-- What `grep` writes for one input, and whether a line was selected. -/
def grepInput (st : GrepStyle) (name : Bytes) (content : Bytes) : Bytes × Bytes × Bool :=
  let (lines, _, _) := (linesOf content).foldl (fun (acc, n, off) l =>
    let cs := l.toList
    let text := if cs.getLast? == some '\n' then cs.dropLast else cs
    (acc ++ [(⟨text, n, off⟩ : InputLine)], n + 1, off + cs.length)) ([], 1, 0)
  let selectedAll := lines.filter fun l => lineMatches st.matcher st.word st.whole l.text != st.invert
  let selected := match st.maxCount with
    | some m => selectedAll.take m
    | none => selectedAll
  let hit := !selected.isEmpty
  let prefix_ (l : InputLine) (sep : String) : Bytes :=
    (if st.names then name ++ sep else "") ++ (if st.numbers then Nat.repr l.number ++ sep else "") ++
      (if st.offsets then Nat.repr l.offset ++ sep else "")
  let binary := content.contains (Char.ofNat 0) && !st.text
  if st.quiet then ("", "", hit)
  else if st.listMatching then ((if hit then name ++ "\n" else ""), "", hit)
  else if st.listMissing then ((if hit then "" else name ++ "\n"), "", hit)
  else if st.count then
    ((if st.names then name ++ ":" else "") ++ Nat.repr selected.length ++ "\n", "", hit)
  else if binary then ("", (if hit then "grep: " ++ name ++ ": binary file matches\n" else ""), hit)
  else if st.onlyMatching then
    let out := String.join (selected.map fun l =>
      if st.invert then ""
      else String.join ((lineMatchTexts st.matcher st.word st.whole l.text).map fun (a, t) =>
        prefix_ { l with offset := l.offset + a } ":" ++ String.ofList t ++ "\n"))
    (out, "", hit)
  else if st.after == 0 && st.before == 0 then
    (String.join (selected.map fun l => prefix_ l ":" ++ String.ofList l.text ++ "\n"), "", hit)
  else
    -- lines with context: each selected line with `before` lines above and `after` below
    let last := (selected.getLast?.map (·.number)).getD 0
    let picked := selected.map (·.number)
    let near (n : Nat) : Bool := picked.any fun s => n + st.before ≥ s && n ≤ s + st.after && n ≤ last + st.after
    let shown := lines.filter fun l => near l.number
    let (out, _) := shown.foldl (fun (out, prev) l =>
      let gap := match prev with
        | some p => if l.number > p + 1 then "--\n" else ""
        | none => ""
      let sep := if picked.contains l.number then ":" else "-"
      (out ++ gap ++ prefix_ l sep ++ String.ofList l.text ++ "\n", some l.number)) ("", none)
    (out, "", hit)

/-- The options of `grep`. -/
def grepTable : OptionTable where
  flags := "EFGPiyvwxclLqsonhHbHrRaIUzZT".toList
  valued := ['e', 'f', 'm', 'A', 'B', 'C', 'd', 'D']
  long := [longOf "extended-regexp" "E" .none, longOf "fixed-strings" "F" .none,
    longOf "basic-regexp" "G" .none, longOf "perl-regexp" "P" .none,
    longOf "regexp" "e" .required, longOf "file" "f" .required,
    longOf "ignore-case" "i" .none, longOf "no-ignore-case" "no-ignore-case" .none,
    longOf "word-regexp" "w" .none, longOf "line-regexp" "x" .none,
    longOf "null-data" "z" .none, longOf "no-messages" "s" .none,
    longOf "invert-match" "v" .none, longOf "max-count" "m" .required,
    longOf "byte-offset" "b" .none, longOf "line-number" "n" .none,
    longOf "with-filename" "H" .none, longOf "no-filename" "h" .none,
    longOf "label" "label" .required, longOf "only-matching" "o" .none,
    longOf "quiet" "q" .none, longOf "silent" "q" .none,
    longOf "binary-files" "binary-files" .required, longOf "text" "a" .none,
    longOf "directories" "d" .required, longOf "devices" "D" .required,
    longOf "recursive" "r" .none, longOf "dereference-recursive" "R" .none,
    longOf "include" "include" .required, longOf "exclude" "exclude" .required,
    longOf "exclude-dir" "exclude-dir" .required,
    longOf "files-without-match" "L" .none, longOf "files-with-matches" "l" .none,
    longOf "count" "c" .none, longOf "initial-tab" "T" .none, longOf "null" "Z" .none,
    longOf "before-context" "B" .required, longOf "after-context" "A" .required,
    longOf "context" "C" .required, longOf "color" "color" .optional,
    longOf "colour" "color" .optional, longOf "line-buffered" "line-buffered" .none]
    ++ commonLong

/-- The usage lines `grep` writes after a refused argument. -/
def grepUsage (tool : Bytes) : Bytes :=
  "Usage: " ++ tool ++ " [OPTION]... PATTERNS [FILE]...\n" ++ helpHint tool

/-- The warnings `grep` gives about an extended expression: a repeat with nothing before it. -/
def patternWarnings (tool : Bytes) (extended : Bool) (p : List Char) : Bytes :=
  if extended then
    String.join ((Regex.strayRepeats p).map fun op => tool ++ ": warning: " ++ op ++ " at start of expression\n")
  else ""

/-- The complaint about a pattern, in `grep`'s words. -/
def grepPatternFault (extended : Bool) (p : List Char) (e : String) : String :=
  -- a bracket opened at the very end, and an interval never closed, have their own words
  if p.getLast? == some '[' || p == ['[', '^'] then "Invalid regular expression"
  else if e == "Invalid content of \\\x7b\\\x7d" && !extended then
    let closes := (p.zip p.tail).any fun (a, b) => a == '\\' && b == '}'
    if closes then e else "Unmatched \\\x7b"
  else e

/-- The warnings about the patterns, up to the first that has a class written without its
outer brackets, and then the complaint about that one. -/
def patternNotes (tool : Bytes) (extended : Bool) : List (List Char) → Bytes × Option Bytes
  | [] => ("", none)
  | p :: ps =>
    let here := patternWarnings tool extended p
    if Regex.hasBareClass p then
      (here, some (tool ++ ": character class syntax is [[:space:]], not [:space:]\n"))
    else
      let (more, fault) := patternNotes tool extended ps
      (here ++ more, fault)

/-- `grep`. -/
def search (inv : Invocation) (files : FileTree) : Completion :=
  match readOptions inv.program grepTable inv.args with
  | .error e => ended files 2 "" (e ++ grepUsage inv.program)
  | .ok r =>
  let given := r.options.filterMap fun (k, v) => if k == "e" then v else none
  let fromFiles := r.options.filterMap fun (k, v) => if k == "f" then v else none
  let (patternTexts, operands) :=
    if given.isEmpty && fromFiles.isEmpty then
      match r.operands with
      | p :: rest => (some [p], rest)
      | [] => (none, [])
    else (some given, r.operands)
  let fileTexts := fromFiles.map fun f => (files.readFile inv.cwd (Bytes.toText f)).toOption.getD ""
  match patternTexts with
  | none => ended files 2 "" (grepUsage inv.program)
  | some ps =>
  let patterns := (ps ++ fileTexts.map fun t => if t.endsWith "\n" then (t.dropEnd 1).toString else t).flatMap
    fun p => p.splitOn "\n"
  let patterns := if ps.isEmpty && fileTexts.all (·.isEmpty) then [] else patterns
  let lastOf (keys : List String) : Option String :=
    (r.options.filter fun (k, _) => keys.contains k).getLast?.map (·.1)
  let kind := (lastOf ["E", "F", "G", "P"]).getD "G"
  let icase := (lastOf ["i", "y", "no-ignore-case"]).map (· != "no-ignore-case") |>.getD false
  let extended := kind == "E"
  let number (k : String) : Except Bytes (Option Nat) :=
    match r.value? k with
    | some v => match optionNumber v with
      | some n => .ok (some n)
      | none =>
        if k == "m" then .error (inv.program ++ ": invalid max count\n")
        else .error (inv.program ++ ": " ++ v ++ ": invalid context length argument\n")
    | none => .ok none
  match number "m", number "A", number "B", number "C" with
  | .error e, _, _, _ | _, .error e, _, _ | _, _, .error e, _ | _, _, _, .error e => ended files 2 "" e
  | .ok maxCount, .ok after, .ok before, .ok context =>
  let compiled : Except Bytes Matcher :=
    if kind == "F" then .ok (.fixed (patterns.map String.toList) icase)
    else
      let one (p : String) : Except Bytes Regex.Compiled :=
        match Regex.compile extended icase p.toList with
        | .ok rx => .ok rx
        | .error e => .error (inv.program ++ ": " ++ grepPatternFault extended p.toList e ++ "\n")
      (patterns.mapM one).map Matcher.regexes
  match compiled with
  | .error e => ended files 2 "" e
  | .ok matcher =>
  let (warnings, fault) := if kind == "F" then ("", none)
    else patternNotes inv.program extended (patterns.map String.toList)
  match fault with
  | some e => ended files 2 "" (warnings ++ e)
  | none =>
  let recursive := r.hasAny ['r', 'R']
  let inputs := if operands.isEmpty then (if recursive then ["."] else ["-"]) else operands
  -- with `-r`, the files below each directory given, depth first
  let expand (p : Bytes) : List Bytes :=
    if recursive && p != "-" && files.isDir inv.cwd (Bytes.toText p) then
      let entries := files.walk inv.cwd (Bytes.toText p)
      let below := entries.filter (!·.isDirectory)
      let shown := below.map fun e =>
        let rel := "/".intercalate (e.below.map Bytes.ofText)
        if operands.isEmpty then rel else Utilities.below p rel
      shown
    else [p]
  let paths := inputs.flatMap expand
  -- names are written for several operands, or for the files found below a directory
  let several := operands.length > 1 ||
    (recursive && inputs.any fun p => p != "-" && files.isDir inv.cwd (Bytes.toText p))
  let names := (several || r.has "H") && !r.has "h"
  let label := (r.value? "label").getD "(standard input)"
  let st : GrepStyle := {
    matcher, invert := r.has "v", word := r.has "w", whole := r.has "x",
    count := r.has "c", listMatching := r.has "l", listMissing := r.has "L",
    quiet := r.has "q", silent := r.has "s", onlyMatching := r.has "o", names,
    numbers := r.has "n", offsets := r.has "b", maxCount,
    after := (after.orElse fun _ => context).getD 0, before := (before.orElse fun _ => context).getD 0,
    text := r.has "a" }
  let (rd, anyHit, failed) := paths.foldl (fun (rd, anyHit, failed) p =>
    -- `-q` is done at the first selected line
    if st.quiet && anyHit then (rd, anyHit, failed) else
    let shownName := if p == "-" then label else p
    if p != "-" && files.isDir inv.cwd (Bytes.toText p) then
      let message := if st.silent then "" else inv.program ++ ": " ++ p ++ ": Is a directory\n"
      ({ rd with err := rd.err ++ message }, anyHit, true)
    else
    let (got, rd) := rd.take inv files p
    match got with
    | .ok content =>
      let (out, err, hit) := grepInput st shownName content
      ({ rd with out := rd.out ++ out, err := rd.err ++ err }, anyHit || hit, failed)
    | .error e =>
      let message := if st.silent then "" else inv.program ++ ": " ++ p ++ ": " ++ e.text ++ "\n"
      ({ rd with err := rd.err ++ message }, anyHit, true))
    (({ stdin := inv.stdin } : Reading), false, false)
  let code := if st.quiet && anyHit then 0 else if failed then 2 else if anyHit then 0 else 1
  ended files code rd.out (warnings ++ rd.err)

theorem fold_false (c : Char) : Regex.fold false c = c := by
  simp [Regex.fold]

/-- Where a fixed string has room in a line, it stands there exactly when each of its bytes is
the line's byte at its place. -/
theorem fixed_same_iff {cs text : List Char} {p : Nat} (hlen : p + text.length ≤ cs.length) :
    (text.zipIdx.all fun x =>
        Regex.fold false (cs.toArray.getD (p + x.snd) ' ') == Regex.fold false x.fst) = true ↔
      ∀ j < text.length, cs[p + j]? = text[j]? := by
  simp only [List.all_eq_true, fold_false, beq_iff_eq, Array.getD_eq_getD_getElem?,
    List.getElem?_toArray]
  constructor
  · intro h j hj
    have hmem : (text[j], j) ∈ text.zipIdx := List.mem_zipIdx_iff_getElem?.mpr (by simp [hj])
    have hbyte := h _ hmem
    rw [List.getElem?_eq_getElem (by omega)] at hbyte ⊢
    rw [List.getElem?_eq_getElem hj]
    simpa using hbyte
  · rintro h ⟨c, j⟩ hx
    have hc : text[j]? = some c := List.mem_zipIdx_iff_getElem?.mp hx
    have hj : j < text.length := Nat.lt_of_not_le fun hj => by
      rw [List.getElem?_eq_none hj] at hc
      cases hc
    show (cs[p + j]?).getD ' ' = c
    rw [h j hj, hc, Option.getD_some]

/-- The fixed-string search, started at a position, finds the string there exactly when the
string has room there and each of its bytes is the line's byte at its place. -/
theorem fixedAt_at_iff {cs text : List Char} {i : Nat} :
    (∃ b, fixedAt false cs.toArray text i = some (i, b)) ↔
      i + text.length ≤ cs.length ∧ ∀ j < text.length, cs[i + j]? = text[j]? := by
  have hrange : (List.range (cs.toArray.size + 1 - min (cs.toArray.size + 1) (i + text.length))).map
      (· + i) = List.range' i (cs.toArray.size + 1 - min (cs.toArray.size + 1) (i + text.length)) := by
    simp only [List.range'_eq_map_range, Nat.add_comm]
  unfold fixedAt
  simp only [hrange]
  simp only [Regex.findSome?_range'_eq_some, List.size_toArray]
  constructor
  · rintro ⟨b, p, hip, hpN, hp, -⟩
    split at hp
    · rename_i hsame
      obtain ⟨rfl, -⟩ := Prod.mk.inj (Option.some.inj hp)
      have hroom : p + text.length ≤ cs.length := by omega
      exact ⟨hroom, (fixed_same_iff hroom).mp hsame⟩
    · cases hp
  · rintro ⟨hroom, hbytes⟩
    have hsame := (fixed_same_iff hroom).mpr hbytes
    exact ⟨i + text.length, i, Nat.le_refl i, by omega, by rw [if_pos hsame],
      fun q h1 h2 => absurd h2 (by omega)⟩

/-- Keeping the best of a list from nothing keeps something exactly when the list has an
entry, if each step keeps something. -/
theorem foldl_isSome_iff {g : Option Nat → Nat → Option Nat} (hg : ∀ b e, (g b e).isSome)
    (es : List Nat) (init : Option Nat) : (es.foldl g init).isSome ↔ init.isSome ∨ es ≠ [] := by
  induction es generalizing init with
  | nil => simp
  | cons e es ih =>
    rw [List.foldl_cons, ih]
    simp [hg]

/-- `grep -F` with one string, neither `-i`, `-w` nor `-x`, selects exactly the lines that hold
the string. -/
theorem lineMatches_fixed (text line : List Char) :
    lineMatches (.fixed [text] false) false false line = true ↔ text <:+: line := by
  unfold lineMatches patternMatch
  simp only [List.findSome?_isSome_iff, List.mem_map, List.mem_range, Option.isSome_map]
  rw [List.infix_iff_getElem?]
  constructor
  · rintro ⟨x, ⟨a, ha, rfl⟩, hsome⟩
    -- a position whose list of ends is not empty, so the string stands there
    have hends := ((foldl_isSome_iff (fun b e => by cases b <;> rfl) _ none).mp hsome).resolve_left
      (by simp)
    obtain ⟨e, he⟩ := List.exists_mem_of_ne_nil _ hends
    obtain ⟨t, ht, hf⟩ := List.mem_filterMap.mp he
    rw [List.mem_singleton] at ht
    subst t
    have hat : ∃ b, fixedAt false line.toArray text (a + 0) = some (a + 0, b) := by
      split at hf
      · rename_i a' b hfix
        simp only [Bool.not_false, Bool.true_or, Bool.and_true, beq_iff_eq] at hf
        split at hf
        · rename_i hx
          exact ⟨b, hx ▸ hfix⟩
        · cases hf
      · cases hf
    obtain ⟨hroom, hbytes⟩ := fixedAt_at_iff.mp hat
    refine ⟨a, by omega, fun j hj => ?_⟩
    rw [Nat.add_comm j a, ← Nat.add_zero a, hbytes j hj, List.getElem?_eq_getElem hj]
  · rintro ⟨k, hroom, hbytes⟩
    -- the string stands at the position the infix starts at
    have hat : ∃ b, fixedAt false line.toArray text k = some (k, b) := by
      refine fixedAt_at_iff.mpr ⟨by omega, fun j hj => ?_⟩
      rw [Nat.add_comm k j, hbytes j hj, List.getElem?_eq_getElem hj]
    obtain ⟨b, hfix⟩ := hat
    refine ⟨k, ⟨k, by simp; omega, rfl⟩, (foldl_isSome_iff (fun b e => by cases b <;> rfl) _ none).mpr
      (Or.inr ?_)⟩
    simp [hfix]

example : lineMatches (.fixed ["ab".toList] false) false false "xaby".toList = true ∧
    lineMatches (.fixed ["ab".toList] false) false false "xay".toList = false := by decide

end BuildRecipe.Utilities
