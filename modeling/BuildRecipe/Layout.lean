import BuildRecipe.Error
import BuildRecipe.FileTree.Edit
/-!
# Folder layout

The folders of one build: the source root, the build root `builddir` below it, and the
package folder, `package` below the source root unless another one is given (a
relative one is taken from the source root). The package folder is cleared on every
packaging, so it may be neither the source root nor the build root nor a folder above
either. The check compares the folders as `resolve` gives them: the location of what a path
names when it names something, and the path's lexical form otherwise, so its verdict can
change with what is on disk. Main statement: the check passes exactly when the package
folder covers neither root.
-/

namespace BuildRecipe

/-- The folders of one build. -/
structure Layout where
  sourceRoot : String
  buildRoot : String
  packageFolder : String
  deriving DecidableEq, Repr, Inhabited

namespace Layout

/-- The name of the build folder below the source root. -/
def buildFolderName : String := "builddir"

/-- The name of the default package folder below the source root. -/
def packageFolderName : String := "package"

/-- The layout rooted at a source folder. -/
def rootedAt (root : String) : Layout :=
  ⟨root, Path.join root buildFolderName, Path.join root packageFolderName⟩

/-- The layout with another package folder; a relative one is taken from the source
root. -/
def withPackageFolder (l : Layout) (folder : String) : Layout :=
  { l with packageFolder := if Path.isAbsolute folder then folder else Path.join l.sourceRoot folder }

/-- The native file in the build root. -/
def nativeFile (l : Layout) : String := Path.join l.buildRoot "kiln_meson_native.ini"

/-- The toolchain record in the build root. -/
def toolchainFile (l : Layout) : String := Path.join l.buildRoot "kiln_toolchain.json"

/-- The error for a package folder that would contain a protected folder. -/
def containsError (l : Layout) (what root : String) : Error :=
  .configuration ("Package folder " ++ l.packageFolder ++ " would contain the " ++ what ++
    " folder " ++ root)

/-- A path as the check compares it: from the root down to what it names when it names
something, and its lexical form otherwise. -/
def resolve (t : FileTree) (cwd : Location) (p : String) : List Component :=
  match t.canonicalize cwd p with
  | .ok location => .root :: location.map .normal
  | .error _ => Path.lexical p

/-- Whether the package folder, resolved, begins `root` resolved. -/
def covers (l : Layout) (t : FileTree) (cwd : Location) (root : String) : Bool :=
  Path.startsWith (resolve t cwd root) (resolve t cwd l.packageFolder)

/-- The package folder contains neither the source root nor the build root, each resolved in
a tree from a working directory; the source root is checked first. Without a tree, the
paths are resolved in the empty tree from the root, where only the root exists. -/
def check (l : Layout) (t : FileTree := {}) (cwd : Location := []) : Outcome Unit :=
  if l.covers t cwd l.sourceRoot then .error (l.containsError "source" l.sourceRoot)
  else if l.covers t cwd l.buildRoot then .error (l.containsError "build" l.buildRoot)
  else .ok ()

theorem check_of_covers_source (l : Layout) {t : FileTree} {cwd : Location}
    (h : l.covers t cwd l.sourceRoot = true) :
    l.check t cwd = .error (l.containsError "source" l.sourceRoot) := by
  simp [check, h]

theorem check_ok_iff (l : Layout) (t : FileTree) (cwd : Location) :
    l.check t cwd = .ok () ↔
      l.covers t cwd l.sourceRoot = false ∧ l.covers t cwd l.buildRoot = false := by
  unfold check
  cases h1 : l.covers t cwd l.sourceRoot <;> cases h2 : l.covers t cwd l.buildRoot <;> simp

end Layout

end BuildRecipe
