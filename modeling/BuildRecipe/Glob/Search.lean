import BuildRecipe.Glob.Pattern
import BuildRecipe.FileTree.Walk
/-!
# Searching a file tree with a glob

A search takes a pattern text and finds the paths of a tree it matches. The whole text must
compile as a pattern first; then it is cut at slashes into one pattern per component (a
trailing slash adds none but asks for directories only), and the search starts at the root
for an absolute text and at the working directory otherwise.

Each component moves the search one level: a component without wildcards is taken as the
next name when that path exists (`.` and `..` when the current path is a directory); any
other component is matched against the names of the current directory, in name order; a
`**` component matches the current directory and every directory below it, and as the
last component it finds those directories but not the one it started from. Names `.` and
`..` are only produced for a component that starts with a dot. The paths found keep the
components as written, joined by slashes.

The results come in the order of a depth-first search in name order.

Main statement: a pattern of plain characters is taken as a name, its own text
(`literal?_chars`).
-/

namespace BuildRecipe.Glob

/-- The text a pattern matches alone, when it has no wildcards. -/
def Pattern.literal? (p : Pattern) : Option String :=
  (p.tokens.mapM fun
    | Token.char c => some c
    | _ => none).map String.ofList

/-- A path reached by a search and whether it is a directory. -/
structure Reached where
  path : String
  isDirectory : Bool
  deriving DecidableEq, Repr, Inhabited

/-- Work left in a search: a path already matched by every component, or a path still to be
matched against the component at an index. -/
inductive Pending where
  | matched (r : Reached)
  | against (r : Reached) (index : Nat)
  deriving DecidableEq, Repr, Inhabited

/-- The parts of one search: the tree, the working directory, the component patterns and
whether only directories are wanted. -/
structure Search where
  tree : FileTree
  cwd : Location
  components : List Pattern
  directoriesOnly : Bool

namespace Search

/-- A path text with whether it is a directory. -/
def reach (s : Search) (p : String) : Reached := ⟨p, s.tree.isDir s.cwd p⟩

/-- Whether a path text is the working directory written as `.`. -/
def isCurrent (p : String) : Bool := Path.components p == [.current]

/-- A name below a reached path. -/
def below (here : Reached) (n : String) : String :=
  if isCurrent here.path then n else Path.join here.path n

/-- The work that continuing at component `index` from a reached path leaves, in the order
it is stacked (the last is taken first). -/
def fill (s : Search) : Nat → Nat → Reached → List Pending
  | 0, _, _ => []
  | fuel + 1, index, here =>
    match s.components[index]? with
    | none => []
    | some pat =>
      let add : Reached → List Pending := fun next =>
        if index + 1 = s.components.length then [.matched next]
        else s.fill fuel (index + 1) next
      match pat.literal? with
      | some name =>
        let special := name == "." || name == ".."
        let next := s.reach (below here name)
        if (special && here.isDirectory) ||
            (!special && s.tree.pathExists s.cwd next.path) then add next
        else []
      | none =>
        if here.isDirectory then
          let names := (s.tree.readDir s.cwd here.path).toOption.getD []
          let kids := ((sortNames names).reverse).map fun n => Pending.against (s.reach (below here n)) index
          let dots := if pat.tokens.head? == some (.char '.') then
              [".", ".."].flatMap fun d =>
                if pat.matches d then add (s.reach (Path.join here.path d)) else []
            else []
          kids ++ dots
        else []

/-- The number of recursive components from an index on. -/
def recursiveRun (s : Search) (index : Nat) : Nat :=
  ((s.components.drop index).takeWhile (·.recursive)).length

/-- The paths that a piece of work yields, in search order. -/
def run (s : Search) : Nat → Pending → List String
  | 0, _ => []
  | _ + 1, .matched r => if s.directoriesOnly && !r.isDirectory then [] else [r.path]
  | fuel + 1, .against r index =>
    let last := s.components.length - 1
    let rest : List Pending → List String := fun stack => stack.reverse.flatMap (s.run fuel)
    let plain : Nat → List Pending → List String := fun i stack =>
      match s.components[i]?, Path.fileName? r.path with
      | some pat, some name =>
        if pat.matches name then
          if i = last then
            (if !s.directoriesOnly || r.isDirectory then [r.path] else []) ++ rest stack
          else rest (stack ++ s.fill fuel (i + 1) r)
        else rest stack
      | _, _ => rest stack
    match s.components[index]? with
    | none => []
    | some pat =>
      if pat.recursive then
        let next := index + s.recursiveRun index - 1
        if r.isDirectory then
          let stack := s.fill fuel next r
          if next = last then r.path :: rest stack else plain (next + 1) stack
        else if next = last then []
        else plain (next + 1) []
      else plain index []

end Search

/-- The component texts of a pattern text after its root. -/
def componentTexts (rest : String) : List String :=
  let parts := Path.segments rest
  if rest.isEmpty then [] else if parts.getLast? == some "" then parts.dropLast else parts

/-- The paths a pattern text matches in a tree, in search order. -/
def search (t : FileTree) (cwd : Location) (text : String) : Except PatternError (List String) := do
  let _ ← compile text
  let absolute := Path.isAbsolute text
  let rest := if absolute then String.ofList (text.toList.drop 1) else text
  let components ← (componentTexts rest).mapM compile
  let s : Search := ⟨t, cwd, components, text.toList.getLast? == some '/'⟩
  let scope := s.reach (if absolute then "/" else ".")
  let fuel := 2 * (components.length + 1) * (t.entries.length + 2)
  if components.isEmpty then return []
  return (s.fill fuel 0 scope).reverse.flatMap (s.run fuel)

theorem literal?_chars (cs : List Char) :
    Pattern.literal? ⟨cs.map Token.char, false⟩ = some (String.ofList cs) := by
  unfold Pattern.literal?
  induction cs with
  | nil => rfl
  | cons c cs ih =>
    simp only [List.map_cons, List.mapM_cons] at ih ⊢
    cases h : List.mapM (fun t => match t with | Token.char c => some c | _ => none)
        (List.map Token.char cs) with
    | none => simp [h] at ih
    | some v => simp_all

end BuildRecipe.Glob
