import BuildRecipe.FileTree.Walk
import BuildRecipe.Artifact
/-!
# Finding artifacts

The artifacts of a package are the entries at or below its folder that are not directories
and whose name is the library of the package for the kind and operating system. They are
listed in path order, the order of their components.

Main statement: a folder that names nothing has no artifacts (`findArtifacts_missing`).
-/

namespace BuildRecipe

/-- Path texts in the order of their components; equal ones keep their order. -/
def sortPaths (ps : List String) : List String := sortBy (fun a b => !Path.lt b a) ps

/-- The artifacts of a library below a folder, in path order. -/
def findArtifacts (t : FileTree) (cwd : Location) (folder name : String) (kind : LibraryKind)
    (os : Os) : List String :=
  sortPaths ((t.walk cwd folder).filterMap fun e =>
    if e.isDirectory then none
    else match Path.fileName? e.path with
      | some f => if isLibraryArtifact f name kind os then some e.path else none
      | none => none)

theorem findArtifacts_missing (t : FileTree) (cwd : Location) (folder name : String)
    (kind : LibraryKind) (os : Os) (h : t.metadata cwd folder = .error .notFound) :
    findArtifacts t cwd folder name kind os = [] := by
  simp [findArtifacts, FileTree.walk_missing t cwd folder h, sortPaths]

end BuildRecipe
