import BuildRecipe.Utility.Text
/-!
# Columns of lines

`cut` keeps parts of each line of its inputs: bytes (`-b`) or characters (`-c`, which are
bytes in the `C` locale) at positions of a list, or fields (`-f`) split at a delimiter, a tab
unless `-d` names another. A list is made of positions `N`, ranges `N-M`, and open ranges
`N-` and `-M`, joined by commas; positions count from 1. The parts keep their order in the
line, whatever the order of the list; `--complement` keeps the others instead.

A line without the delimiter is written whole under `-f`, unless `-s`. Fields are joined by
the delimiter, or by the text `--output-delimiter` gives, which also joins byte ranges that do
not touch.

Main statement: keeping every field, joined by the delimiter, gives each line back
(`cutFields_all`).
-/

namespace BuildRecipe.Utilities

/-- A range of positions, from 1, inclusive; `none` as its end runs to the end of the line. -/
structure Span where
  first : Nat
  last : Option Nat
  deriving DecidableEq, Repr, Inhabited

/-- Whether a position lies in a span. -/
def Span.holds (s : Span) (i : Nat) : Bool :=
  s.first ≤ i && (match s.last with | some l => i ≤ l | none => true)

/-- Why a list of positions was refused, in `cut`'s words for bytes or for fields. -/
def listFault (fields : Bool) (what : String) (item : String) : String :=
  match what with
  | "zero" => if fields then "fields are numbered from 1" else
      "byte/character positions are numbered from 1"
  | "decreasing" => "invalid decreasing range"
  | "endless" => "invalid range with no endpoint: -"
  | _ => if fields then "invalid field value " ++ quoted item else
      "invalid byte/character position " ++ quoted item

/-- The spans of a list, or the complaint about it. -/
def parseSpans (fields : Bool) (text : String) : Except String (List Span) :=
  let number (t : String) : Option Nat :=
    if !t.isEmpty && t.toList.all Char.isDigit then some t.toNat! else none
  (text.splitOn ",").foldlM (fun acc item =>
    match item.splitOn "-" with
    | [one] =>
      match number one with
      | some 0 => .error (listFault fields "zero" item)
      | some n => .ok (acc ++ [⟨n, some n⟩])
      | none => .error (listFault fields (if one.isEmpty then "zero" else "value") one)
    | [a, b] =>
      if a.isEmpty && b.isEmpty then .error (listFault fields "endless" item)
      else
        match (if a.isEmpty then some 1 else number a), (if b.isEmpty then some 0 else number b) with
        | some 0, _ => .error (listFault fields "zero" item)
        | some x, some y =>
          if b.isEmpty then .ok (acc ++ [⟨x, none⟩])
          else if y == 0 then .error (listFault fields "zero" item)
          else if y < x then .error (listFault fields "decreasing" item)
          else .ok (acc ++ [⟨x, some y⟩])
        | none, _ => .error (listFault fields "value" a)
        | _, none => .error (listFault fields "value" b)
    | _ => .error (listFault fields "value" item)) []

/-- Whether a position is kept. -/
def keeps (spans : List Span) (complement : Bool) (i : Nat) : Bool :=
  (spans.any fun s => s.holds i) != complement

/-- The bytes of a line kept, with the joiner between runs that do not touch. -/
def cutBytes (spans : List Span) (complement : Bool) (joiner : Option Bytes) (line : List Char) :
    List Char :=
  let (out, _) := line.zipIdx.foldl (fun (out, prev) (c, i) =>
    if keeps spans complement (i + 1) then
      let sep := match joiner, prev with
        | some j, some p => if p + 1 == i + 1 then [] else j.toList
        | _, _ => []
      (out ++ sep ++ [c], some (i + 1))
    else (out, prev)) ([], none)
  out

/-- The fields of a line kept, joined; none for a line without the delimiter that `-s` drops. -/
def cutFields (spans : List Span) (complement : Bool) (delim : Char) (joiner : Bytes)
    (suppress : Bool) (line : List Char) : Option (List Char) :=
  if !line.contains delim then (if suppress then none else some line)
  else
    let fs := line.splitOn delim
    let kept := fs.zipIdx.filterMap fun (f, i) => if keeps spans complement (i + 1) then some f else none
    some (joiner.toList.intercalate kept)

/-- The options of `cut`. -/
def cutTable : OptionTable where
  flags := ['n', 's', 'z']
  valued := ['b', 'c', 'd', 'f']
  long := [longOf "bytes" "b" .required, longOf "characters" "c" .required,
    longOf "delimiter" "d" .required, longOf "fields" "f" .required,
    longOf "only-delimited" "s" .none, longOf "complement" "complement" .none,
    longOf "output-delimiter" "output-delimiter" .required,
    longOf "zero-terminated" "z" .none] ++ commonLong

/-- `cut`. -/
def cut (inv : Invocation) (files : FileTree) : Completion :=
  withOptions inv files cutTable 1 fun r =>
  let refuse (what : String) : Completion := ended files 1 "" (usage inv.program what)
  -- the faults found while reading the options come first, in order
  let lists := r.options.filter fun (k, _) => k == "b" || k == "c" || k == "f"
  let optionFault : Option String :=
    let firstBad := r.options.zipIdx.findSome? fun ((k, v), i) =>
      if (k == "b" || k == "c" || k == "f") &&
          ((r.options.take i).any fun (k', _) => k' == "b" || k' == "c" || k' == "f") then
        some "only one list may be specified"
      else if k == "d" && (v.getD "").length != 1 then some "the delimiter must be a single character"
      else none
    firstBad
  match optionFault with
  | some m => refuse m
  | none =>
  match lists.head? with
  | none => refuse "you must specify a list of bytes, characters, or fields"
  | some (mode, text) =>
    let onFields := mode == "f"
    if r.has "d" && !onFields then
      refuse "an input delimiter may be specified only when operating on fields"
    else if r.has "s" && !onFields then
      refuse "suppressing non-delimited lines makes sense\n\tonly when operating on fields"
    else
    match parseSpans onFields (text.getD "") with
    | .error m => refuse m
    | .ok spans =>
      let delim := ((r.value? "d").bind fun d => d.toList.head?).getD '\t'
      let complement := r.has "complement"
      let joiner := r.value? "output-delimiter"
      let cutLine (line : List Char) : Option (List Char) :=
        if onFields then cutFields spans complement delim (joiner.getD (String.singleton delim))
          (r.has "s") line
        else some (cutBytes spans complement joiner line)
      let paths := if r.operands.isEmpty then ["-"] else r.operands
      let rd := paths.foldl (fun (rd : Reading) p =>
        let (got, rd) := rd.take inv files p
        match got with
        | .ok b =>
          let lines := (linesOf b).map fun l =>
            let cs := l.toList
            if cs.getLast? == some '\n' then cs.dropLast else cs
          let kept := lines.filterMap cutLine
          { rd with out := rd.out ++ String.join (kept.map fun l => String.ofList l ++ "\n") }
        | .error e =>
          let message := inv.program ++ ": " ++ p ++ ": " ++ e.text ++ "\n"
          { rd with err := rd.err ++ message, failed := true }) { stdin := inv.stdin }
      { exit := .code (if rd.failed then 1 else 0),
        writes := Channel.push (Channel.push [] .err rd.err) .out rd.out, files }

/-- Keeping every field from the first on, joined by the delimiter, gives the line back. -/
theorem cutFields_all (delim : Char) (line : List Char) :
    cutFields [⟨1, none⟩] false delim (String.singleton delim) false line = some line := by
  unfold cutFields
  split
  · rfl
  · have hkeep : ∀ i, keeps [⟨1, none⟩] false (i + 1) = true := fun i => by
      simp [keeps, Span.holds]
    have hkept : ((line.splitOn delim).zipIdx.filterMap fun (f, i) =>
        if keeps [⟨1, none⟩] false (i + 1) then some f else none) = line.splitOn delim := by
      simp only [hkeep, if_true]
      rw [List.filterMap_eq_map', List.zipIdx_map_fst]
    simp only [hkept, String.toList_singleton, List.intercalate_splitOn]

example : cutFields [⟨2, some 2⟩] false ':' ":" false "a:b:c".toList = some ['b'] ∧
    cutFields [⟨2, some 2⟩] true ':' ":" false "a:b:c".toList = some "a:c".toList := by
  decide

end BuildRecipe.Utilities
