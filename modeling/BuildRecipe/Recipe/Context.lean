import BuildRecipe.Recipe.Validate
import BuildRecipe.Settings
import BuildRecipe.Layout
import BuildRecipe.PackageId
import BuildRecipe.Artifact
/-!
# The inputs of one run

A run works from one validated recipe, its hook table, its resolved options, the settings
and the folder layout, bundled once. Making the bundle validates the recipe (keeping its
warnings), registers its hooks and resolves the option overrides, in that order; the first
failure is the error.

From the bundle come the library kind, the package id, the same bundle moved to another
source root (the package folder stays where it was), the substitution of hook commands, and
the environment a hook runs in.

Main statements: moving a bundle keeps its package id (`packageId_rebased`) and its package
folder when that folder is absolute (`rebased_packageFolder`).
-/

namespace BuildRecipe

/-- Validated, resolved inputs of a run. -/
structure RunContext where
  recipe : Recipe
  hooks : HookTable
  options : BuildOptions
  settings : Settings
  layout : Layout
  warnings : List String
  deriving Inhabited

namespace RunContext

/-- The bundle of a recipe with option overrides, settings and a layout. -/
def make (r : Recipe) (overrides : List (String × String)) (s : Settings) (l : Layout) :
    Outcome RunContext := do
  let warnings ← r.validate
  let hooks ← HookTable.ofEntries r.hooks
  let options ← BuildOptions.resolve r.options overrides
  return ⟨r, hooks, options, s, l, warnings⟩

/-- The library kind the `shared` option asks for. -/
def libraryKind (c : RunContext) : LibraryKind := LibraryKind.ofShared c.options.shared

/-- The package id of this configuration. -/
def packageId (c : RunContext) : String := BuildRecipe.packageId c.recipe.package c.settings c.options

/-- The same inputs with sources and build folder under another root. -/
def rebased (c : RunContext) (root : String) : RunContext :=
  { c with layout := (Layout.rootedAt root).withPackageFolder c.layout.packageFolder }

/-- A hook command with the recipe's and the layout's variables substituted. -/
def substitute (c : RunContext) (command : String) : String :=
  c.recipe.substitute command c.layout.buildRoot c.layout.packageFolder

/-- The environment of a hook command. -/
def hookEnv (c : RunContext) : List (String × String) :=
  [("KILN_PACKAGE_NAME", c.recipe.package.name),
   ("KILN_PACKAGE_VERSION", c.recipe.package.version),
   ("KILN_SOURCE_FOLDER", c.layout.sourceRoot),
   ("KILN_BUILD_FOLDER", c.layout.buildRoot),
   ("KILN_PACKAGE_FOLDER", c.layout.packageFolder),
   ("KILN_SHARED", if c.options.shared then "true" else "false")]

theorem packageId_rebased (c : RunContext) (root : String) :
    (c.rebased root).packageId = c.packageId := rfl

theorem rebased_packageFolder (c : RunContext) (root : String)
    (h : Path.isAbsolute c.layout.packageFolder = true) :
    (c.rebased root).layout.packageFolder = c.layout.packageFolder := by
  simp [rebased, Layout.withPackageFolder, h]

end RunContext

end BuildRecipe
