import BuildRecipe.Shell.Pattern
import BuildRecipe.FileTree.Basic
/-!
# From expanded words to fields

After its expansions a word is a run of bytes, each quoted or not and each open to splitting or
not (only the results of unquoted expansions are), with marks where quoted text stood (so that
`""` gives an empty field) and cuts where `"$@"` separates parameters.

**Field splitting** breaks the run at the bytes of `IFS` that are open to splitting. A blank,
tab or newline of `IFS` is white space: white space at the start of a field is dropped, a run of
it ends a field, and it joins one other `IFS` byte next to it into a single delimiter. Every
other `IFS` byte ends a field, even an empty one. A field left empty at the end is dropped
unless quoted text stood in it. With `IFS` empty nothing is split.

**Pathname expansion** replaces a field with an unquoted `*`, `?` or `[` by the paths it matches,
in byte order, or leaves it when nothing matches. The pattern is matched a path component at a
time; a name starting with `.` is matched only by a component starting with `.`, and a pattern
ending in `/` matches directories only.

Main statements: with `IFS` empty a run of plain bytes is one field (`splitFields_noIfs`).
-/

namespace BuildRecipe.Shell

/-- A byte after expansion: whether it is quoted, and whether splitting may break at it. -/
structure Expanded where
  c : Char
  quoted : Bool
  split : Bool
  deriving DecidableEq, Repr, Inhabited

/-- What expansion makes of a word before it is split. -/
inductive Piece where
  /-- A byte. -/
  | byte (e : Expanded)
  /-- Quoted text, maybe empty, stood here: the field is kept. -/
  | mark
  /-- Two parameters of `"$@"` meet here: a field ends. -/
  | cut
  /-- Two parameters of an unquoted `$@` or `$*` meet here: a field with bytes ends. -/
  | softCut
  deriving DecidableEq, Repr, Inhabited

/-- Bytes as pieces, quoted or not, open to splitting or not. -/
def Piece.ofBytes (b : Bytes) (quoted split : Bool) : List Piece :=
  b.toList.map fun c => .byte ⟨c, quoted, split⟩

/-- The splitting of a run of pieces in progress: the fields made (last first), the field being
made (last byte first), whether quoted text stood in it, and, right after a delimiter, whether
that delimiter was white space only. -/
structure Splitting where
  done : List (List Expanded) := []
  current : List Expanded := []
  marked : Bool := false
  after : Option Bool := none

namespace Splitting

/-- The splitting with the current field ended. -/
def finish (st : Splitting) : Splitting :=
  { st with done := st.current.reverse :: st.done, current := [], marked := false }

/-- Whether the current field has anything in it. -/
def started (st : Splitting) : Bool := !st.current.isEmpty || st.marked

/-- One piece, with `IFS` as given. -/
def step (ifs : List Char) (st : Splitting) : Piece → Splitting
  | .mark => { st with marked := true, after := none }
  | .cut => { st.finish with after := none }
  | .softCut => if st.started then { st.finish with after := some true } else st
  | .byte e =>
    if e.split && ifs.contains e.c then
      let white := e.c == ' ' || e.c == '\t' || e.c == '\n'
      match st.after with
      | some wasWhite =>
        if white then st
        else if wasWhite then { st with after := some false }
        else { st.finish with after := some false }
      | none =>
        if !st.started && white then st
        else { st.finish with after := some white }
    else { st with current := e :: st.current, after := none }

end Splitting

/-- The fields of a run of pieces, split at the bytes of `IFS`. -/
def splitFields (ifs : List Char) (ps : List Piece) : List (List Expanded) :=
  let st := ps.foldl (Splitting.step ifs) {}
  let st := if st.started then st.finish else st
  st.done.reverse

theorem splitFields_noIfs (cs : List Char) (h : cs ≠ []) :
    splitFields [] (cs.map fun c => .byte ⟨c, false, true⟩) = [cs.map fun c => ⟨c, false, true⟩] := by
  have key : ∀ (xs : List Char) (st : Splitting), st.after = none →
      (xs.map fun c => Piece.byte ⟨c, false, true⟩).foldl (Splitting.step []) st =
        { st with
          current := (xs.map fun c => (⟨c, false, true⟩ : Expanded)).reverse ++ st.current
          after := if xs.isEmpty then st.after else none } := by
    intro xs
    induction xs with
    | nil => intro st _; simp
    | cons x xs ih =>
      intro st hst
      simp only [List.map_cons, List.foldl_cons]
      rw [ih]
      · simp [Splitting.step, List.reverse_cons]
      · simp [Splitting.step]
  unfold splitFields
  rw [key cs {} rfl]
  cases cs with
  | nil => exact absurd rfl h
  | cons c cs =>
    simp [Splitting.started, Splitting.finish]

-- ============================================================================
-- Pathname expansion
-- ============================================================================

/-- A pattern cut at its slashes. -/
def components (p : List PatChar) : List (List PatChar) :=
  p.foldr (fun pc acc =>
    if pc.c == '/' then [] :: acc
    else match acc with
      | c :: rest => (pc :: c) :: rest
      | [] => [[pc]]) [[]]

/-- The location below a directory that a name reaches: `.` stays and `..` goes up. -/
def below (dir : Location) (name : Bytes) : Location :=
  if name == "." || name.isEmpty then dir
  else if name == ".." then dir.dropLast
  else dir ++ [name.toText]

/-- The paths a pattern's components match below a directory, each written after `written`. -/
def globFrom (t : FileTree) : Location → Bytes → List (List PatChar) → List Bytes
  | dir, written, [] => if (t.get? dir).isSome then [written] else []
  | dir, written, [[]] => if t.isDirectoryAt dir then [written] else []
  | dir, written, c :: rest =>
    let next (name : Bytes) : List Bytes :=
      let loc := below dir name
      match rest with
      | [] => if (t.get? loc).isSome then [written ++ name] else []
      | _ => if t.isDirectoryAt loc then globFrom t loc (written ++ name ++ "/") rest else []
    if hasMeta c then
      let dotFirst := (c.head?.map (·.c == '.')).getD false
      let names := (if dotFirst then [".", ".."] else []) ++ (t.children dir).map Bytes.ofText
      let names := names.filter fun n => (dotFirst || !n.startsWith ".") && matchText c n.toList
      if t.isDirectoryAt dir then names.flatMap next else []
    else next (String.ofList (plainText c))

/-- The paths a pattern matches from a working directory, in byte order. -/
def glob (t : FileTree) (cwd : Location) (p : List PatChar) : List Bytes :=
  let found := match components p with
    | [] :: rest@(_ :: _) => globFrom t [] "/" rest
    | cs => globFrom t cwd "" cs
  found.mergeSort fun a b => decide (a ≤ b)

/-- The words a field stands for after pathname expansion, unless `noglob`. -/
def expandPath (t : FileTree) (cwd : Location) (noglob : Bool) (field : List Expanded) :
    List Bytes :=
  let p := field.map fun e => (⟨e.c, e.quoted⟩ : PatChar)
  let text := String.ofList (field.map (·.c))
  if noglob || !hasMeta p then [text]
  else
    match glob t cwd p with
    | [] => [text]
    | found => found

end BuildRecipe.Shell
