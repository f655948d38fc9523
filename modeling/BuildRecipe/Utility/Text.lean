import BuildRecipe.Utility.Basic
/-!
# Slices and counts of text

The utilities that read their inputs as lines: `head` and `tail` keep the first or last lines
or bytes of each input, `wc` counts them, and `tee` copies its input to files as well as to its
output. An operand `-`, or none, is standard input, which can be read once: a second `-` finds
it empty.

* `head [-n [-]N] [-c [-]N] [-q] [-v]` keeps the first `N` lines or bytes, or all but the last
  `N` with a leading `-`; `tail [-n [+]N] [-c [+]N]` keeps the last `N`, or everything from the
  `N`th with a leading `+`. Both also take the old form `-N` as their first argument. With more
  than one input each is headed `==> name <==`, the headers after the first set off by an
  empty line.
* `wc [-clmwL]` writes lines, words, characters, bytes and the longest line's width, in that
  order, of the counts asked for (lines, words and bytes by default), right-aligned to one
  width: the digits of the total size of the regular files among the inputs, at least 7 when an
  input is not a regular file, and 1 when one count of one input is asked for. Characters are
  bytes, as in the `C` locale.

Main statements: the lines of a text joined give it back (`linesOf_join`), and `head` and
`tail` cut an input in two at any count of lines (`lines_split`).
-/

namespace BuildRecipe.Utilities

/-- The lines of bytes, each with its newline; the last may lack one. -/
def linesOf (b : Bytes) : List Bytes :=
  let rec go : List Char → List Char → List Bytes
    | [], [] => []
    | [], acc => [String.ofList acc.reverse]
    | '\n' :: rest, acc => String.ofList ('\n' :: acc).reverse :: go rest []
    | c :: rest, acc => go rest (c :: acc)
  go b.toList []

/-- What a reader of the operands carries: standard input until it is read, what was written,
and whether anything failed. -/
structure Reading where
  stdin : Bytes
  out : Bytes := ""
  err : Bytes := ""
  failed : Bool := false

/-- The bytes of an operand: standard input for `-`, which is then used up, else the file. -/
def Reading.take (rd : Reading) (inv : Invocation) (files : FileTree) (p : Bytes) :
    Except IoFault Bytes × Reading :=
  if p == "-" then (.ok rd.stdin, { rd with stdin := "" })
  else (files.readFile inv.cwd (Bytes.toText p), rd)

/-- The name an operand has in headers and messages. -/
def inputName (p : Bytes) : Bytes := if p == "-" then "standard input" else p

-- ============================================================================
-- head and tail
-- ============================================================================

/-- How much of an input `head` or `tail` keeps. -/
inductive Portion where
  /-- The first lines. -/
  | firstLines (n : Nat)
  /-- All lines but the last ones. -/
  | allButLastLines (n : Nat)
  /-- The last lines. -/
  | lastLines (n : Nat)
  /-- The lines from one on, counted from 1. -/
  | linesFrom (n : Nat)
  | firstBytes (n : Nat)
  | allButLastBytes (n : Nat)
  | lastBytes (n : Nat)
  | bytesFrom (n : Nat)
  deriving DecidableEq, Repr, Inhabited

/-- The part of an input a portion keeps. -/
def Portion.apply (p : Portion) (b : Bytes) : Bytes :=
  let ls := linesOf b
  let cs := b.toList
  match p with
  | .firstLines n => String.join (ls.take n)
  | .allButLastLines n => String.join (ls.take (ls.length - n))
  | .lastLines n => String.join (ls.drop (ls.length - n))
  | .linesFrom n => String.join (ls.drop (n - 1))
  | .firstBytes n => String.ofList (cs.take n)
  | .allButLastBytes n => String.ofList (cs.take (cs.length - n))
  | .lastBytes n => String.ofList (cs.drop (cs.length - n))
  | .bytesFrom n => String.ofList (cs.drop (n - 1))

/-- A count with an optional multiplier suffix: `b` for 512, `K` or `k` for 1024, `M` and `G`
for its powers, `KB`, `MB` and `GB` for powers of 1000. -/
def countValue (t : List Char) : Option Nat :=
  let ds := t.takeWhile Char.isDigit
  let suffix := String.ofList (t.drop ds.length)
  if ds.isEmpty then none
  else
    let n := (String.ofList ds).toNat!
    let times : Option Nat := match suffix with
      | "" => some 1
      | "b" => some 512
      | "K" | "k" | "KiB" => some 1024
      | "M" | "MiB" => some (1024 * 1024)
      | "G" | "GiB" => some (1024 * 1024 * 1024)
      | "KB" | "kB" => some 1000
      | "MB" => some 1000000
      | "GB" => some 1000000000
      | _ => none
    times.map (n * ·)

/-- The portion `head` keeps for `-n` or `-c` given `text`; none when the text is not a count. -/
def headPortion (lines : Bool) (text : String) : Option Portion :=
  match text.toList with
  | '-' :: rest =>
    (countValue rest).map fun n => if lines then .allButLastLines n else .allButLastBytes n
  | cs => (countValue cs).map fun n => if lines then .firstLines n else .firstBytes n

/-- The portion `tail` keeps for `-n` or `-c` given `text`. -/
def tailPortion (lines : Bool) (text : String) : Option Portion :=
  match text.toList with
  | '+' :: rest => (countValue rest).map fun n => if lines then .linesFrom n else .bytesFrom n
  | '-' :: rest => (countValue rest).map fun n => if lines then .lastLines n else .lastBytes n
  | cs => (countValue cs).map fun n => if lines then .lastLines n else .lastBytes n

/-- The options of `head`. -/
def headTable : OptionTable where
  flags := ['q', 'v', 'z']
  valued := ['c', 'n']
  long := [longOf "bytes" "c" .required, longOf "lines" "n" .required,
    longOf "quiet" "q" .none, longOf "silent" "q" .none, longOf "verbose" "v" .none,
    longOf "zero-terminated" "z" .none] ++ commonLong

/-- The options of `tail`. -/
def tailTable : OptionTable where
  flags := ['f', 'F', 'q', 'v', 'z']
  valued := ['c', 'n', 's']
  long := [longOf "bytes" "c" .required, longOf "lines" "n" .required,
    longOf "follow" "f" .optional, longOf "quiet" "q" .none, longOf "silent" "q" .none,
    longOf "verbose" "v" .none, longOf "retry" "retry" .none, longOf "pid" "pid" .required,
    longOf "sleep-interval" "s" .required,
    longOf "max-unchanged-stats" "max-unchanged-stats" .required,
    longOf "zero-terminated" "z" .none] ++ commonLong

/-- The old first argument `-N`, with `c` after it for bytes or `l` for lines, as a count
option; tail also takes `+N`. -/
def oldCount (tail : Bool) (args : List Bytes) : List Bytes :=
  match args with
  | a :: rest =>
    match a.toList with
    | sign :: d :: more =>
      if (sign == '-' || (tail && sign == '+')) && d.isDigit then
        let ds := (d :: more).takeWhile Char.isDigit
        let after := (d :: more).drop ds.length
        let number := (if sign == '+' then "+" else "") ++ String.ofList ds
        match after with
        | [] => "-n" :: number :: rest
        | ['l'] => "-n" :: number :: rest
        | ['c'] => "-c" :: number :: rest
        | _ => args
      else args
    | _ => args
  | [] => args

/-- `head` or `tail`: each input's portion, headed by its name when there are several or `-v`
asks. -/
def sliceInputs (tail : Bool) (inv : Invocation) (files : FileTree) : Completion :=
  let args := oldCount tail inv.args
  withOptions { inv with args } files (if tail then tailTable else headTable) 1 fun r =>
  -- the last of `-n` and `-c` decides
  let chosen := (r.options.filter fun (k, _) => k == "n" || k == "c").getLast?
  let portion : Except Bytes Portion := match chosen with
    | some (k, some v) =>
      let lines := k == "n"
      match (if tail then tailPortion lines v else headPortion lines v) with
      | some p => .ok p
      | none => .error (inv.program ++ ": invalid number of " ++ (if lines then "lines" else "bytes") ++
          ": " ++ quoted v ++ "\n")
    | _ => .ok (if tail then .lastLines 10 else .firstLines 10)
  match portion with
  | .error e => ended files 1 "" e
  | .ok portion =>
    let paths := if r.operands.isEmpty then ["-"] else r.operands
    let headed := (paths.length > 1 || r.has "v") && !r.has "q"
    let (rd, _) := paths.foldl (fun (rd, first) p =>
      let (got, rd) := rd.take inv files p
      let header := if headed then (if first then "" else "\n") ++ "==> " ++ inputName p ++ " <==\n"
        else ""
      match got with
      | .ok b => ({ rd with out := rd.out ++ header ++ portion.apply b }, false)
      | .error .isADirectory =>
        let message := inv.program ++ ": error reading " ++ quoted p ++ ": Is a directory\n"
        ({ rd with out := rd.out ++ header, err := rd.err ++ message, failed := true }, false)
      | .error e =>
        let message := inv.program ++ ": cannot open " ++ quoted p ++ " for reading: " ++ e.text ++ "\n"
        ({ rd with err := rd.err ++ message, failed := true }, first))
      (({ stdin := inv.stdin } : Reading), true)
    ended files (if rd.failed then 1 else 0) rd.out rd.err

/-- `head`. -/
def head (inv : Invocation) (files : FileTree) : Completion := sliceInputs false inv files

/-- `tail`. -/
def tail (inv : Invocation) (files : FileTree) : Completion := sliceInputs true inv files

-- ============================================================================
-- wc
-- ============================================================================

/-- The counts `wc` makes of an input. -/
structure Counts where
  lines : Nat := 0
  words : Nat := 0
  bytes : Nat := 0
  longest : Nat := 0
  deriving DecidableEq, Repr, Inhabited

/-- Whether a byte separates words: a blank, a newline or another space character. -/
def isSpaceByte (c : Char) : Bool :=
  c == ' ' || c == '\t' || c == '\n' || c == '\r' || c == Char.ofNat 11 || c == Char.ofNat 12

/-- The counts of bytes: newlines, words, bytes, and the widest line, where a tab goes on to
the next multiple of 8 and only printable bytes take a column. -/
def countBytes (b : Bytes) : Counts :=
  let (c, _, pos) := b.toList.foldl (fun (c, inWord, pos) ch =>
    let c := { c with bytes := c.bytes + 1 }
    let (c, inWord) :=
      if isSpaceByte ch then (c, false)
      else if inWord then (c, true) else ({ c with words := c.words + 1 }, true)
    if ch == '\n' then ({ c with lines := c.lines + 1, longest := max c.longest pos }, inWord, 0)
    else if ch == '\r' || ch == Char.ofNat 12 then ({ c with longest := max c.longest pos }, inWord, 0)
    else if ch == '\t' then (c, inWord, pos + 8 - pos % 8)
    else if 32 ≤ ch.toNat && ch.toNat < 127 then (c, inWord, pos + 1)
    else (c, inWord, pos)) (({} : Counts), false, 0)
  { c with longest := max c.longest pos }

/-- The sum of two counts; the widest line is the wider. -/
def Counts.add (a b : Counts) : Counts :=
  ⟨a.lines + b.lines, a.words + b.words, a.bytes + b.bytes, max a.longest b.longest⟩

/-- Which counts `wc` writes: lines, words, characters, bytes, widest line. -/
structure CountChoice where
  lines : Bool
  words : Bool
  chars : Bool
  bytes : Bool
  longest : Bool

/-- The numbers of a count that are written, in their order. -/
def CountChoice.pick (k : CountChoice) (c : Counts) : List Nat :=
  (if k.lines then [c.lines] else []) ++ (if k.words then [c.words] else []) ++
    (if k.chars then [c.bytes] else []) ++ (if k.bytes then [c.bytes] else []) ++
    (if k.longest then [c.longest] else [])

/-- A line of `wc`: the numbers right-aligned to the width, then the name if there is one. -/
def countLine (width : Nat) (ns : List Nat) (name : Option Bytes) : Bytes :=
  let cell (n : Nat) : Bytes :=
    let ds := Nat.repr n
    String.ofList (List.replicate (width - ds.length) ' ') ++ ds
  " ".intercalate (ns.map cell) ++ (match name with | some n => " " ++ n | none => "") ++ "\n"

/-- The options of `wc`. -/
def wcTable : OptionTable where
  flags := ['c', 'm', 'l', 'L', 'w']
  valued := []
  long := [longOf "bytes" "c" .none, longOf "chars" "m" .none, longOf "lines" "l" .none,
    longOf "max-line-length" "L" .none, longOf "words" "w" .none,
    longOf "files0-from" "files0-from" .required, longOf "total" "total" .required] ++ commonLong

/-- `wc`. -/
def count (inv : Invocation) (files : FileTree) : Completion :=
  withOptions inv files wcTable 1 fun r =>
  let plain := !r.hasAny ['c', 'm', 'l', 'L', 'w']
  let k : CountChoice := {
    lines := plain || r.has "l", words := plain || r.has "w", chars := r.has "m",
    bytes := plain || r.has "c", longest := r.has "L" }
  let named := !r.operands.isEmpty
  let paths := if named then r.operands else ["-"]
  let asked := (k.pick {}).length
  -- the width: from the sizes of the regular files, at least 7 for anything else
  let status := paths.map fun p =>
    if p == "-" then (if inv.stdinRegular then some (some inv.stdin.length) else some none)
    else match files.metadata inv.cwd (Bytes.toText p) with
      | .ok (.file c _) => some (some c.length)
      | .ok _ => some none
      | .error _ => none
  let width :=
    if paths.length == 1 && asked == 1 then 1
    else match status.head? with
      | some (some _) =>
        let total := (status.filterMap fun st => st.bind id).foldr (· + ·) 0
        let least := if status.any fun st => st == some none then 7 else 1
        max (Nat.repr total).length least
      | _ => 1
  let (rd, total) := paths.foldl (fun (rd, total) p =>
    let (got, rd) := rd.take inv files p
    let name := if named then some p else none
    match got with
    | .ok b =>
      let c := countBytes b
      ({ rd with out := rd.out ++ countLine width (k.pick c) name }, total.add c)
    | .error .isADirectory =>
      let message := inv.program ++ ": " ++ p ++ ": Is a directory\n"
      let line := countLine width (k.pick {}) name
      ({ rd with out := rd.out ++ line, err := rd.err ++ message, failed := true }, total)
    | .error e =>
      let message := inv.program ++ ": " ++ p ++ ": " ++ e.text ++ "\n"
      ({ rd with err := rd.err ++ message, failed := true }, total)) (({ stdin := inv.stdin } : Reading), ({} : Counts))
  let out := if paths.length > 1 then rd.out ++ countLine width (k.pick total) (some "total") else rd.out
  { exit := .code (if rd.failed then 1 else 0),
    writes := Channel.push (Channel.push [] .err rd.err) .out out, files }

-- ============================================================================
-- tee
-- ============================================================================

/-- `tee [-a] file…`: standard input to standard output and to each file, appended with `-a`. -/
def tee (inv : Invocation) (files : FileTree) : Completion :=
  let t : OptionTable := {
    flags := ['a', 'i', 'p'], valued := [],
    long := [longOf "append" "a" .none, longOf "ignore-interrupts" "i" .none,
      longOf "output-error" "output-error" .optional] ++ commonLong }
  withOptions inv files t 1 fun r =>
  let (t, err, failed) := r.operands.foldl (fun (t, err, failed) p =>
    let wrote := if r.has "a" then t.appendFile inv.cwd (Bytes.toText p) inv.stdin (newFileMode inv.umask)
      else t.writeFileWith inv.cwd (Bytes.toText p) inv.stdin (newFileMode inv.umask)
    match wrote with
    | .ok t' => (t', err, failed)
    | .error e => (t, err ++ inv.program ++ ": " ++ p ++ ": " ++ e.text ++ "\n", true))
    (files, "", false)
  ended t (if failed then 1 else 0) inv.stdin err

theorem linesOf_go (cs acc : List Char) :
    (linesOf.go cs acc).flatMap String.toList = acc.reverse ++ cs := by
  induction cs generalizing acc with
  | nil => cases acc <;> simp [linesOf.go]
  | cons c rest ih =>
    by_cases h : c = '\n'
    · subst h; simp [linesOf.go, ih]
    · simp [linesOf.go, ih]

theorem linesOf_join (b : Bytes) : (linesOf b).flatMap String.toList = b.toList := by
  simp [linesOf, linesOf_go]

theorem join_linesOf (b : Bytes) : String.join (linesOf b) = b :=
  String.toList_inj.mp (by rw [String.toList_join, linesOf_join])

/-- `head` and `tail` cut an input in two: what `head -n k` keeps followed by what
`tail -n +(k+1)` keeps is the input, and so is what `head -n -k` keeps followed by what
`tail -n k` keeps. -/
theorem lines_split (k : Nat) (b : Bytes) :
    (Portion.firstLines k).apply b ++ (Portion.linesFrom (k + 1)).apply b = b ∧
      (Portion.allButLastLines k).apply b ++ (Portion.lastLines k).apply b = b := by
  simp only [Portion.apply, Nat.add_sub_cancel, ← String.join_append, List.take_append_drop,
    join_linesOf, and_self]

example : (Portion.firstLines 1).apply "a\nb\n" = "a\n" ∧
    (Portion.lastLines 1).apply "a\nb" = "b" := by decide

end BuildRecipe.Utilities
