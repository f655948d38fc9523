import BuildRecipe.FileTree.Walk
import BuildRecipe.Glob.Pattern
import BuildRecipe.Recipe.Basic
/-!
# Copying headers

A header rule names a pattern, a source folder below the source root and a destination
folder below the package folder. Copying walks the source folder in name order and copies
every regular file whose name matches the pattern to the same relative path below the
destination, making the folders it needs. The copies made are returned in the order they
were made.

A pattern that does not compile is refused before anything is written; a source folder
that is not a directory gives no copies. Because the walk reads a folder's names when it
enters it, a destination inside the source folder can have copies of its own copies.

Main statement: a rule whose pattern does not compile is refused with the pattern's fault
(`copyHeaders_invalid`).
-/

namespace BuildRecipe

/-- The error for a header pattern that does not compile. -/
def invalidHeaderPattern (pattern : String) (e : Glob.PatternError) : Error :=
  .packaging ("Invalid header pattern '" ++ pattern ++ "': " ++ e.text)

/-- Copy one visited file when its name matches, answering the copy made. -/
def copyMatching (pat : Glob.Pattern) (dst : String) (entry : WalkEntry) : Act (List String) := do
  if entry.isDirectory then return []
  match entry.below.getLast? with
  | none => return []
  | some name =>
    if !pat.matches name then return []
    let target := Path.join dst ("/".intercalate entry.below)
    match Path.parent? target with
    | some parent => Act.change Error.ofFault (·.createDirAll · parent)
    | none => pure ()
    Act.change (fun e => .packaging ("Failed to copy " ++ entry.path ++ " to " ++ target ++ ": " ++
      e.message)) (·.copyFile · entry.path target)
    return [target]

/-- Copy the headers a rule selects from the source root into the package folder. -/
def copyHeaders (rule : HeaderRule) (sourceRoot packageFolder : String) : Act (List String) := do
  let src := Path.join sourceRoot rule.src
  let dst := Path.join packageFolder rule.dst
  match Glob.compile rule.pattern with
  | .error e => throw (invalidHeaderPattern rule.pattern e)
  | .ok pat =>
    if !(← Act.query (·.isDir · src)) then return []
    Act.walkSorted (copyMatching pat dst) src

theorem copyHeaders_invalid (rule : HeaderRule) (s p : String) (e : Glob.PatternError)
    (h : Glob.compile rule.pattern = .error e) (m : Machine) :
    (copyHeaders rule s p).run m = (.error (invalidHeaderPattern rule.pattern e), m) := by
  simp [copyHeaders, h, Act.run]
  rfl

end BuildRecipe
