import BuildRecipe.Recipe.Decode
import BuildRecipe.FileTree.Edit
/-!
# Recipes read from files

A recipe file is read whole and decoded as a recipe text. A file that cannot be read is an
I/O error that says so and gives the fault.

Main statement: a missing file is that I/O error (`recipeOfFile_missing`).
-/

namespace BuildRecipe.Decode

/-- The error of a recipe file that cannot be read. -/
def unreadableRecipe (e : IoFault) : Error := .io ("Failed to read recipe file: " ++ e.message)

/-- The recipe in a file. -/
def recipeOfFile (t : FileTree) (cwd : Location) (path : String) : Outcome Recipe :=
  match t.readText cwd path with
  | .ok text => recipeOfToml text
  | .error e => .error (unreadableRecipe e)

theorem recipeOfFile_unreadable {t : FileTree} {cwd : Location} {path : String} {e : IoFault}
    (h : t.readText cwd path = .error e) : recipeOfFile t cwd path = .error (unreadableRecipe e) := by
  simp [recipeOfFile, h]

theorem recipeOfFile_missing (t : FileTree) (cwd : Location) (path : String)
    (h : t.readText cwd path = .error .notFound) :
    recipeOfFile t cwd path = .error (.io "Failed to read recipe file: No such file or directory (os error 2)") := by
  rw [recipeOfFile_unreadable h]
  rfl

end BuildRecipe.Decode
