import BuildRecipe.Utility.Text
/-!
# Ordering lines

`sort` writes the lines of its inputs in order, and `uniq` writes one line of each run of equal
adjacent lines.

Lines are compared by keys, each a part of the line given by `-k F[.C][opts][,F[.C][opts]]`,
or the whole line when no key is given. Fields are split at the `-t` character, or else each
starts at the blanks before it. A key compares as bytes, as the `C` locale does; with `n` as
numbers (an optional `-`, digits, a fraction; anything else counts as 0), with `f` with lower
case read as upper, with `b` without leading blanks, with `d` on blanks and alphanumerics
only, and with `r` reversed. When all keys are equal the whole lines decide, as bytes, unless
`-s` keeps such lines in their input order or `-u` keeps only the first of them. The sort
keeps equal lines in input order.

`uniq [-c] [-d] [-u] [-i] [-f N] [-s N] [-w N] [input [output]]` compares lines after
skipping `N` fields and `N` bytes and up to `-w` bytes, ignoring case with `-i`; `-c` writes
each count right-aligned in seven columns.

Main statement: comparing two keys as numbers the other way round gives the opposite answer
(`compareNumbers_swap`), as the sort's order needs.
-/

namespace BuildRecipe.Utilities

/-- How a key compares. -/
structure KeyOrder where
  numeric : Bool := false
  fold : Bool := false
  blanks : Bool := false
  dictionary : Bool := false
  reverse : Bool := false
  deriving DecidableEq, Repr, Inhabited

/-- Whether any way of comparing was asked for. -/
def KeyOrder.any (o : KeyOrder) : Bool :=
  o.numeric || o.fold || o.blanks || o.dictionary || o.reverse

/-- A sort key: where it starts and ends in the line, and how it compares. The start is a
field and a character in it, from 1; the end a field and a last character, 0 for the field's
end, or none for the line's end. -/
structure SortKey where
  startField : Nat
  startChar : Nat
  startBlanks : Bool
  endField : Option Nat
  endChar : Nat
  endBlanks : Bool
  order : KeyOrder
  deriving DecidableEq, Repr, Inhabited

/-- The letters of a key's options. -/
def keyLetters (o : KeyOrder) (cs : List Char) : Option KeyOrder :=
  cs.foldlM (fun o c =>
    match c with
    | 'n' => some { o with numeric := true }
    | 'f' => some { o with fold := true }
    | 'b' => some { o with blanks := true }
    | 'd' => some { o with dictionary := true }
    | 'r' => some { o with reverse := true }
    | 'g' | 'h' | 'M' | 'V' | 'R' => some { o with numeric := true }
    | 'i' => some o
    | _ => none) o

/-- A position of a key, `F[.C][opts]`: the field, the character, whether `b` was given, and
the other options; or the complaint about it. -/
def keyPosition (text : List Char) (isEnd : Bool) :
    Except String (Nat × Nat × Bool × KeyOrder) :=
  let fieldDs := text.takeWhile Char.isDigit
  let rest := text.drop fieldDs.length
  let (charDs, rest) := match rest with
    | '.' :: more => (some (more.takeWhile Char.isDigit), more.drop (more.takeWhile Char.isDigit).length)
    | _ => (none, rest)
  if fieldDs.isEmpty then .error "invalid number at field start"
  else
    let field := (String.ofList fieldDs).toNat!
    let ch := match charDs with
      | some ds => if ds.isEmpty then none else some (String.ofList ds).toNat!
      | none => some 0
    match ch with
    | none => .error "invalid number after '.'"
    | some c =>
      if field == 0 then .error "field number is zero"
      else if !isEnd && charDs.isSome && c == 0 then .error "character offset is zero"
      else
        match keyLetters {} rest with
        | some o => .ok (field, (if isEnd then c else max c 1), o.blanks, o)
        | none => .error "stray character in field spec"

/-- A key given to `-k`, or the complaint about it. -/
def parseKey (text : String) : Except String SortKey := do
  let (a, b) := match text.splitOn "," with
    | [a] => (a, none)
    | a :: b :: _ => (a, some b)
    | [] => ("", none)
  let (sf, sc, sb, so) ← keyPosition a.toList false
  match b with
  | none => pure ⟨sf, sc, sb, none, 0, false, so⟩
  | some e =>
    let (ef, ec, eb, eo) ← keyPosition e.toList true
    let order : KeyOrder := {
      numeric := so.numeric || eo.numeric, fold := so.fold || eo.fold,
      blanks := so.blanks || eo.blanks, dictionary := so.dictionary || eo.dictionary,
      reverse := so.reverse || eo.reverse }
    pure ⟨sf, sc, sb, some ef, ec, eb, order⟩

/-- Whether a byte is a blank of `sort`: a space or a tab. -/
def isBlank (c : Char) : Bool := c == ' ' || c == '\t'

/-- The fields of a line with their start positions: split at `sep`, or each starting with the
blanks before it. -/
def fieldStarts (sep : Option Char) (line : List Char) : List (Nat × Nat) :=
  match sep with
  | some t =>
    -- field i runs from its start to the next separator
    let (spans, start, _) := line.foldl (fun (acc, start, i) c =>
      if c == t then (acc ++ [(start, i)], i + 1, i + 1) else (acc, start, i + 1)) ([], 0, 0)
    spans ++ [(start, line.length)]
  | none =>
    let n := line.length
    let arr := line.toArray
    -- a field starts where a blank run begins after a non-blank, or at 0
    let starts := (List.range n).filter fun i =>
      i == 0 || (isBlank (arr.getD i ' ') && !isBlank (arr.getD (i - 1) ' '))
    let starts := if starts.isEmpty then [0] else starts
    starts.zipIdx.map fun (s, k) => (s, starts.getD (k + 1) n)

/-- The part of a line a key names. -/
def keyText (sep : Option Char) (k : SortKey) (line : List Char) : List Char :=
  let fs := fieldStarts sep line
  let n := line.length
  let arr := line.toArray
  let skipBlanks (i limit : Nat) : Nat :=
    ((List.range (limit - i)).map (· + i)).find? (fun j => !isBlank (arr.getD j 'x')) |>.getD limit
  let start :=
    match fs[k.startField - 1]? with
    | some (s, e) =>
      let s := if k.startBlanks || k.order.blanks then skipBlanks s e else s
      min (s + k.startChar - 1) e
    | none => n
  let stop :=
    match k.endField with
    | none => n
    | some ef =>
      match fs[ef - 1]? with
      | some (s, e) =>
        if k.endChar == 0 then e
        else
          let s := if k.endBlanks || k.order.blanks then skipBlanks s e else s
          min (s + k.endChar) e
      | none => n
  (line.drop start).take (stop - start)

/-- A number at the front of a key, as `sort -n` reads it: its sign, its whole digits without
leading zeros, and its fraction digits without trailing zeros. -/
def numberPrefix (cs : List Char) : Bool × List Char × List Char :=
  let cs := cs.dropWhile isBlank
  let (neg, cs) := match cs with
    | '-' :: rest => (true, rest)
    | _ => (false, cs)
  let whole := cs.takeWhile Char.isDigit
  let rest := cs.drop whole.length
  let frac := match rest with
    | '.' :: more => more.takeWhile Char.isDigit
    | _ => []
  let whole := whole.dropWhile (· == '0')
  let frac := (frac.reverse.dropWhile (· == '0')).reverse
  let isZero := whole.isEmpty && frac.isEmpty
  (neg && !isZero, whole, frac)

/-- Compare two numbers as `sort -n` reads them. -/
def compareNumbers (a b : List Char) : Ordering :=
  let (na, wa, fa) := numberPrefix a
  let (nb, wb, fb) := numberPrefix b
  let magnitude : Ordering :=
    match compare wa.length wb.length with
    | .eq =>
      match compare (String.ofList wa) (String.ofList wb) with
      | .eq => compare (String.ofList fa) (String.ofList fb)
      | o => o
    | o => o
  match na, nb with
  | false, true => .gt
  | true, false => .lt
  | false, false => magnitude
  | true, true => magnitude.swap

/-- Compare two keys the way their order says, before any reversal. -/
def compareKeys (o : KeyOrder) (a b : List Char) : Ordering :=
  if o.numeric then compareNumbers a b
  else
    let a := if o.blanks then a.dropWhile isBlank else a
    let b := if o.blanks then b.dropWhile isBlank else b
    let keep (c : Char) : Bool := !o.dictionary || isBlank c || c.isAlphanum
    let norm (c : Char) : Char := if o.fold then c.toUpper else c
    let a := (a.filter keep).map norm
    let b := (b.filter keep).map norm
    compare (String.ofList a) (String.ofList b)

/-- How `sort` is asked to order lines. -/
structure SortStyle where
  keys : List SortKey
  global : KeyOrder
  separator : Option Char
  stable : Bool
  unique : Bool

/-- Compare two lines by the keys in turn; the whole lines decide a tie unless the sort is
stable or unique. -/
def SortStyle.compareLines (st : SortStyle) (a b : List Char) : Ordering :=
  let keys := if st.keys.isEmpty then [⟨1, 1, false, none, 0, false, st.global⟩] else st.keys
  let byKeys := keys.foldl (fun acc k =>
    match acc with
    | .eq =>
      let o := if k.order.any then k.order else st.global
      let kk := { k with order := o }
      let (ta, tb) := if st.keys.isEmpty then (a, b) else (keyText st.separator kk a, keyText st.separator kk b)
      let c := compareKeys o ta tb
      if o.reverse then c.swap else c
    | other => other) Ordering.eq
  match byKeys with
  | .eq =>
    if st.stable || st.unique then .eq
    else
      let c := compare (String.ofList a) (String.ofList b)
      if st.global.reverse then c.swap else c
  | o => o

/-- The options of `sort`. -/
def sortTable : OptionTable where
  flags := "bcCdfghiMmnrRsuVz".toList
  valued := ['k', 'o', 't', 'S', 'T']
  long := [longOf "ignore-leading-blanks" "b" .none, longOf "dictionary-order" "d" .none,
    longOf "ignore-case" "f" .none, longOf "general-numeric-sort" "g" .none,
    longOf "ignore-nonprinting" "i" .none, longOf "month-sort" "M" .none,
    longOf "human-numeric-sort" "h" .none, longOf "numeric-sort" "n" .none,
    longOf "random-sort" "R" .none, longOf "reverse" "r" .none, longOf "version-sort" "V" .none,
    longOf "check" "c" .optional, longOf "key" "k" .required, longOf "merge" "m" .none,
    longOf "output" "o" .required, longOf "stable" "s" .none,
    longOf "field-separator" "t" .required, longOf "unique" "u" .none,
    longOf "zero-terminated" "z" .none, longOf "buffer-size" "S" .required,
    longOf "temporary-directory" "T" .required, longOf "parallel" "parallel" .required]
    ++ commonLong

/-- The lines of bytes without their newlines. -/
def plainLines (b : Bytes) : List (List Char) :=
  (linesOf b).map fun l =>
    let cs := l.toList
    if cs.getLast? == some '\n' then cs.dropLast else cs

/-- `sort`. -/
def sort (inv : Invocation) (files : FileTree) : Completion :=
  withOptions inv files sortTable 2 fun r =>
  let global : KeyOrder := {
    numeric := r.hasAny ['n', 'g', 'h', 'M', 'V'], fold := r.has "f", blanks := r.has "b",
    dictionary := r.has "d", reverse := r.has "r" }
  let keys : Except Bytes (List SortKey) :=
    (r.options.filterMap fun (k, v) => if k == "k" then v else none).mapM fun t =>
    match parseKey t with
    | .ok k => .ok k
    | .error m => .error (inv.program ++ ": " ++ m ++ ": invalid field specification " ++ quoted t ++ "\n")
  let sep := (r.value? "t").bind fun t => t.toList.head?
  match keys with
  | .error m => ended files 2 "" m
  | .ok keys =>
  match r.value? "t" with
  | some t =>
    if t.length > 1 then ended files 2 "" (inv.program ++ ": multi-character tab " ++ quoted t ++ "\n")
    else if t.isEmpty then ended files 2 "" (inv.program ++ ": empty tab\n")
    else sortWith inv files r keys global sep
  | none => sortWith inv files r keys global sep
where
  /-- The sort itself, its options read. -/
  sortWith (inv : Invocation) (files : FileTree) (r : ReadArgs) (keys : List SortKey)
      (global : KeyOrder) (sep : Option Char) : Completion :=
    let st : SortStyle := { keys, global, separator := sep, stable := r.has "s", unique := r.has "u" }
    let paths := if r.operands.isEmpty then ["-"] else r.operands
    let gathered := paths.foldl (fun (acc : Except Bytes (List (Bytes × List Char)) × Reading) p =>
      match acc with
      | (.error e, rd) => (.error e, rd)
      | (.ok ls, rd) =>
        let (got, rd) := rd.take inv files p
        match got with
        | .ok b => (.ok (ls ++ (plainLines b).map fun l => (p, l)), rd)
        | .error e =>
          (.error (inv.program ++ ": cannot read: " ++ p ++ ": " ++ e.text ++ "\n"), rd))
      (.ok [], { stdin := inv.stdin })
    match gathered.1 with
    | .error e => ended files 2 "" e
    | .ok lines =>
      if r.has "c" || r.has "C" then
        let disorder := (lines.zip lines.tail).zipIdx.find? fun ((a, b), _) =>
          match st.compareLines a.2 b.2 with
          | .gt => true
          | .eq => st.unique
          | .lt => false
        match disorder with
        | some ((_, b), i) =>
          let message := if r.has "C" then ""
            else inv.program ++ ": " ++ b.1 ++ ":" ++ Nat.repr (i + 2) ++ ": disorder: " ++
              String.ofList b.2 ++ "\n"
          ended files 1 "" message
        | none => ended files 0 "" ""
      else
        let sorted := (lines.map (·.2)).mergeSort fun a b => st.compareLines a b != .gt
        let kept := if st.unique then
            sorted.foldl (fun (acc : List (List Char)) l =>
              match acc.head? with
              | some prev => if st.compareLines prev l == .eq then acc else l :: acc
              | none => [l]) [] |>.reverse
          else sorted
        let text := String.join (kept.map fun l => String.ofList l ++ "\n")
        match r.value? "o" with
        | some o =>
          match files.writeFileWith inv.cwd (Bytes.toText o) text (newFileMode inv.umask) with
          | .ok t => ended t 0 "" ""
          | .error e => ended files 2 "" (inv.program ++ ": open failed: " ++ o ++ ": " ++ e.text ++ "\n")
        | none => ended files 0 text ""

/-- The options of `uniq`. -/
def uniqTable : OptionTable where
  flags := ['c', 'd', 'D', 'i', 'u', 'z']
  valued := ['f', 's', 'w']
  long := [longOf "count" "c" .none, longOf "repeated" "d" .none,
    longOf "all-repeated" "D" .optional, longOf "group" "group" .optional,
    longOf "ignore-case" "i" .none, longOf "unique" "u" .none,
    longOf "skip-fields" "f" .required, longOf "skip-chars" "s" .required,
    longOf "check-chars" "w" .required, longOf "zero-terminated" "z" .none] ++ commonLong

/-- The part of a line `uniq` compares: after `fields` fields and `chars` bytes, at most
`width` bytes, in upper case with `fold`. -/
def uniqPart (fields chars : Nat) (width : Option Nat) (fold : Bool) (line : List Char) : List Char :=
  let skipField (cs : List Char) : List Char :=
    (cs.dropWhile isBlank).dropWhile fun c => !isBlank c
  let cs := (List.range fields).foldl (fun cs _ => skipField cs) line
  let cs := cs.drop chars
  let cs := match width with
    | some w => cs.take w
    | none => cs
  if fold then cs.map Char.toUpper else cs

/-- `uniq`. -/
def unique (inv : Invocation) (files : FileTree) : Completion :=
  withOptions inv files uniqTable 1 fun r =>
  let num (k : String) : Option Nat := (r.value? k).bind optionNumber
  let part := uniqPart ((num "f").getD 0) ((num "s").getD 0) (num "w") (r.has "i")
  let input := r.operands.head?.getD "-"
  let (got, _) := ({ stdin := inv.stdin } : Reading).take inv files input
  match got with
  | .error e => ended files 1 "" (inv.program ++ ": " ++ input ++ ": " ++ e.text ++ "\n")
  | .ok b =>
    let lines := plainLines b
    -- runs of lines that compare equal, first line first
    let runs := lines.foldl (fun (acc : List (List Char × List (List Char))) l =>
      match acc with
      | (first, members) :: rest =>
        if part first == part l then (first, l :: members) :: rest else (l, [l]) :: acc
      | [] => [(l, [l])]) [] |>.reverse
    let shown := runs.flatMap fun (first, members) =>
      let n := members.length
      if r.has "d" && n < 2 then []
      else if r.has "u" && n > 1 then []
      else if r.has "D" then (if n < 2 then [] else members.reverse.map fun l => (n, l))
      else [(n, first)]
    let text := String.join (shown.map fun (n, l) =>
      let count := if r.has "c" then
          let ds := Nat.repr n
          String.ofList (List.replicate (7 - ds.length) ' ') ++ ds ++ " "
        else ""
      count ++ String.ofList l ++ "\n")
    match r.operands with
    | [_, out] =>
      match files.writeFileWith inv.cwd (Bytes.toText out) text (newFileMode inv.umask) with
      | .ok t => ended t 0 "" ""
      | .error e => ended files 1 "" (inv.program ++ ": " ++ out ++ ": " ++ e.text ++ "\n")
    | _ => ended files 0 text ""

/-- Comparing two keys as numbers the other way round gives the opposite answer. -/
theorem compareNumbers_swap (a b : List Char) :
    compareNumbers b a = (compareNumbers a b).swap := by
  unfold compareNumbers
  obtain ⟨na, wa, fa⟩ := numberPrefix a
  obtain ⟨nb, wb, fb⟩ := numberPrefix b
  dsimp only
  -- each comparison the magnitudes are made of turns round: lengths, digits, fractions
  have hlen : compare wb.length wa.length = (compare wa.length wb.length).swap :=
    Std.OrientedOrd.eq_swap
  have hwhole : compare (String.ofList wb) (String.ofList wa) =
      (compare (String.ofList wa) (String.ofList wb)).swap := Std.OrientedOrd.eq_swap
  have hfrac : compare (String.ofList fb) (String.ofList fa) =
      (compare (String.ofList fa) (String.ofList fb)).swap := Std.OrientedOrd.eq_swap
  rw [hlen, hwhole, hfrac]
  generalize compare wa.length wb.length = c1
  generalize compare (String.ofList wa) (String.ofList wb) = c2
  generalize compare (String.ofList fa) (String.ofList fb) = c3
  cases c1 <;> cases c2 <;> cases c3 <;> cases na <;> cases nb <;> rfl

example : compareNumbers "10".toList "9".toList = .gt ∧ compareNumbers "-2".toList "1".toList = .lt ∧
    compareNumbers " 007.50".toList "7.5".toList = .eq := by
  decide

end BuildRecipe.Utilities
