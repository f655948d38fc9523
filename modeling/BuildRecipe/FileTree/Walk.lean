import BuildRecipe.Machine
/-!
# Walking a directory

A walk visits a path and, when it is a directory, everything below it, each directory
before its contents. The path of an entry is the walked path joined with the names below
it, so the texts keep the walked path as it was written.

`FileTree.walk` visits a tree that does not change, in the order its entries were made.
`Act.walkSorted` visits the machine's tree while an action runs on every entry: a
directory's names are read, and sorted, when the walk enters it, so an entry the action
creates later in a directory already entered is not visited, while one created in a
directory not yet entered is.

Main statements: a walk of a path that names nothing visits nothing (`walk_missing`), and a
walk of a file visits only it (`walk_file`).
-/

namespace BuildRecipe

/-- A visited entry: its path text, the names below the walked path, and whether it is a
directory. -/
structure WalkEntry where
  path : String
  below : List String
  isDirectory : Bool
  deriving DecidableEq, Repr, Inhabited

namespace FileTree

/-- The entries at and below a location, at most `fuel` levels deep. -/
def walkFrom (t : FileTree) : Nat → String → List String → Location → List WalkEntry
  | 0, _, _, _ => []
  | fuel + 1, path, below, l =>
    match t.get? l with
    | none => []
    | some .directory =>
      ⟨path, below, true⟩ :: (t.children l).flatMap fun n =>
        walkFrom t fuel (Path.join path n) (below ++ [n]) (l ++ [n])
    | some _ => [⟨path, below, false⟩]

/-- The entries at and below a path; nothing when the path names nothing. -/
def walk (t : FileTree) (cwd : Location) (p : String) : List WalkEntry :=
  match t.resolve cwd p with
  | .ok r =>
    match t.metadata cwd p with
    | .ok _ => t.walkFrom (t.entries.length + 1) p [] r.location
    | .error _ => []
  | .error _ => []

theorem walk_missing (t : FileTree) (cwd : Location) (p : String)
    (h : t.metadata cwd p = .error .notFound) : t.walk cwd p = [] := by
  unfold walk
  cases hr : t.resolve cwd p <;> simp [h]

theorem walk_file (t : FileTree) (cwd : Location) (p : String) (r : Resolved) (c : Bytes)
    (m : Nat) (hr : t.resolve cwd p = .ok r) (hm : t.metadata cwd p = .ok (.file c m))
    (hg : t.get? r.location = some (.file c m)) : t.walk cwd p = [⟨p, [], false⟩] := by
  simp [walk, hr, hm, walkFrom, hg]

end FileTree

/-- A list sorted by `le` with `x` put before the first element it comes before. -/
def insertBy {α : Type} (le : α → α → Bool) (x : α) : List α → List α
  | [] => [x]
  | y :: ys => if le x y then x :: y :: ys else y :: insertBy le x ys

/-- A stable sort by `le`: each element, from the last to the first, is put before the first
element it comes before, so equal elements keep their order. -/
def sortBy {α : Type} (le : α → α → Bool) (l : List α) : List α := l.foldr (insertBy le) []

@[simp] theorem sortBy_nil {α : Type} (le : α → α → Bool) : sortBy le ([] : List α) = [] := rfl

/-- Names in increasing order. -/
def sortNames (ns : List String) : List String := sortBy (fun a b => decide (a ≤ b)) ns

namespace Act

/-- Walk below a directory in name order, at most `fuel` levels deep, running `visit` on
every entry below it; each directory's names are read when the walk enters it. -/
def walkSortedFrom {β : Type} (visit : WalkEntry → Act (List β)) :
    Nat → String → List String → Location → Act (List β)
  | 0, _, _, _ => return []
  | fuel + 1, path, below, l => do
    let m ← get
    let listed := (sortNames (m.files.children l)).map fun n =>
      (n, (m.files.get? (l ++ [n])).map Node.isDirectory |>.getD false)
    let mut found : List β := []
    for (n, isDir) in listed do
      let entry : WalkEntry := ⟨Path.join path n, below ++ [n], isDir⟩
      found := found ++ (← visit entry)
      if isDir then
        found := found ++ (← walkSortedFrom visit fuel entry.path entry.below (l ++ [n]))
    return found

/-- Walk below the directory at a path in name order, running `visit` on every entry. -/
def walkSorted {β : Type} (visit : WalkEntry → Act (List β)) (p : String) : Act (List β) := do
  let m ← get
  match m.files.directoryAt m.cwd p with
  | .ok l => walkSortedFrom visit (2 * (m.files.entries.length + 1)) p [] l
  | .error _ => return []

end Act

end BuildRecipe
