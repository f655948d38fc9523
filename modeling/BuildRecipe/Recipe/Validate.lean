import BuildRecipe.Recipe.Basic
import BuildRecipe.Version
import BuildRecipe.Glob.Pattern
/-!
# Validating a recipe

A recipe is checked before it is used, and the first failing check decides the error: the
package name, version and url must not be empty and the version must be a semantic
version; every option, in name order, must list values and have its default among them;
the header pattern must not be empty and must be a valid glob, as must every pattern of
exported sources; and the hooks must register into a table.

A recipe that passes may still draw warnings, in this order: no license, no author, no
description, no `shared` option, and a clone depth of zero.

Main statements: a recipe with an empty name is refused for it (`validate_emptyName`), and
the warnings of a recipe that passes are those `warnings` lists (`validate_ok_warnings`).
-/

namespace BuildRecipe

/-- The first option, in name order, whose declaration is not usable. -/
def optionFault (specs : OptionSpecs) : Option Error :=
  specs.findSome? fun (name, spec) =>
    if spec.values.isEmpty then some (.parse ("Option '" ++ name ++ "' has no allowed values"))
    else if !spec.values.contains spec.default then
      some (.parse ("Default '" ++ spec.default.display ++ "' of option '" ++ name ++
        "' is not among its allowed values"))
    else none

/-- The warnings a valid recipe draws. -/
def Recipe.warnings (r : Recipe) : List String :=
  (if r.package.license.isNone then ["Missing package license"] else []) ++
  (if r.package.author.isNone then ["Missing package author"] else []) ++
  (if r.package.description.isNone then ["Missing package description"] else []) ++
  (if (r.options.get? "shared").isNone then
    ["No 'shared' option declared; building a static library"] else []) ++
  (if r.source.depth = 0 then ["Source depth is 0; the full history will be cloned"] else [])

/-- The checks on the package descriptor and its version. -/
def checkPackage (p : Package) : Outcome Unit := do
  if p.name.isEmpty then throw (.parse "Recipe package name cannot be empty")
  if p.version.isEmpty then throw (.parse "Recipe package version cannot be empty")
  match Version.parse p.version with
  | .error e => throw (.parse ("Invalid package version '" ++ p.version ++ "': " ++ e.message))
  | .ok _ => pure ()
  if p.url.isEmpty then throw (.parse "Recipe package url cannot be empty")

/-- The checks on the glob patterns of a recipe. -/
def checkPatterns (r : Recipe) : Outcome Unit := do
  if r.headers.pattern.isEmpty then throw (.parse "Header pattern cannot be empty")
  match Glob.compile r.headers.pattern with
  | .error e => throw (.parse ("Invalid header pattern '" ++ r.headers.pattern ++ "': " ++ e.text))
  | .ok _ => pure ()
  for p in r.package.exportsSources do
    match Glob.compile p with
    | .error e => throw (.parse ("Invalid exports_sources pattern '" ++ p ++ "': " ++ e.text))
    | .ok _ => pure ()

/-- The recipe checked; its warnings when every check passes. -/
def Recipe.validate (r : Recipe) : Outcome (List String) := do
  checkPackage r.package
  match optionFault r.options with
  | some e => throw e
  | none => pure ()
  checkPatterns r
  let _ ← HookTable.ofEntries r.hooks
  return r.warnings

theorem validate_emptyName (r : Recipe) (h : r.package.name = "") :
    r.validate = .error (.parse "Recipe package name cannot be empty") := by
  simp [Recipe.validate, checkPackage, h]
  rfl

theorem validate_ok_warnings (r : Recipe) (w : List String) (h : r.validate = .ok w) :
    w = r.warnings := by
  unfold Recipe.validate at h
  revert h
  cases checkPackage r.package <;> simp [bind, Except.bind]
  cases optionFault r.options <;> simp [pure, Except.pure]
  · cases checkPatterns r <;> simp
    cases HookTable.ofEntries r.hooks <;> simp
    intro h; exact h.symm

end BuildRecipe
