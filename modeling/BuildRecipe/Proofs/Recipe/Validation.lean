import BuildRecipe.Recipe.Context
import BuildRecipe.Proofs.Hooks.Registration
/-!
# The order of a recipe's checks

A recipe is checked in a fixed order (`Recipe.faults`): an empty package name, an empty
version, a version that is not a semantic version, an empty url, the first option in name
order with no values or a default outside them, an empty header pattern, a header pattern
that is not a glob, the first exported-sources pattern that is not a glob, and hooks that do
not register. Each check either passes or names its error; checks made one after another stop
at the first error (`firstFailure`).

Main statements: validation fails with the error of the first failing check and otherwise
returns the recipe's warnings; making the inputs of a run fails with validation's error, else
with the error of resolving the options, or not at all, since the hooks it registers again
always register once the recipe is valid (`validate_first_fault`).
-/

namespace BuildRecipe

/-- Checks made one after another: the error of the first that fails, else success. -/
def firstFailure (checks : List (Option Error)) : Outcome Unit :=
  match checks.findSome? id with
  | some e => .error e
  | none => .ok ()

theorem firstFailure_append (a b : List (Option Error)) :
    firstFailure (a ++ b) = firstFailure a >>= fun _ => firstFailure b := by
  unfold firstFailure
  rw [List.findSome?_append]
  cases a.findSome? id <;> rfl

/-- A loop that checks each element in turn stops at the first element whose check fails. -/
theorem forIn_eq_firstFailure {α : Type} (check : α → Option Error) (l : List α)
    (body : α → PUnit → Outcome (ForInStep PUnit))
    (hbody : ∀ a, body a PUnit.unit = match check a with
      | some e => .error e
      | none => .ok (.yield PUnit.unit)) :
    forIn l PUnit.unit body = firstFailure [l.findSome? check] := by
  induction l with
  | nil => rfl
  | cons a l ih =>
    rw [List.forIn_cons, hbody]
    cases hc : check a with
    | some e => simp [firstFailure, hc, bind, Except.bind]
    | none =>
      simp only [bind, Except.bind]
      rw [ih]
      simp [firstFailure, List.findSome?_cons, hc]

namespace Recipe

/-- The error of a version that is not a semantic version. -/
def versionFault (v : String) : Option Error :=
  match Version.parse v with
  | .error e => some (.parse ("Invalid package version '" ++ v ++ "': " ++ e.message))
  | .ok _ => none

/-- The checks on the package descriptor, in order. -/
def packageFaults (p : Package) : List (Option Error) :=
  [if p.name.isEmpty then some (.parse "Recipe package name cannot be empty") else none,
    if p.version.isEmpty then some (.parse "Recipe package version cannot be empty") else none,
    versionFault p.version,
    if p.url.isEmpty then some (.parse "Recipe package url cannot be empty") else none]

/-- The error of a header pattern that is not a glob. -/
def headerPatternFault (p : String) : Option Error :=
  match Glob.compile p with
  | .error e => some (.parse ("Invalid header pattern '" ++ p ++ "': " ++ e.text))
  | .ok _ => none

/-- The error of an exported-sources pattern that is not a glob. -/
def exportPatternFault (p : String) : Option Error :=
  match Glob.compile p with
  | .error e => some (.parse ("Invalid exports_sources pattern '" ++ p ++ "': " ++ e.text))
  | .ok _ => none

/-- The checks on the glob patterns, in order. -/
def patternFaults (r : Recipe) : List (Option Error) :=
  [if r.headers.pattern.isEmpty then some (.parse "Header pattern cannot be empty") else none,
    headerPatternFault r.headers.pattern,
    r.package.exportsSources.findSome? exportPatternFault]

/-- The error of hook entries that do not register into a table. -/
def hookFault (hooks : List HookEntry) : Option Error :=
  match HookTable.ofEntries hooks with
  | .error e => some e
  | .ok _ => none

/-- Every check of a recipe, in the order they are made. -/
def faults (r : Recipe) : List (Option Error) :=
  packageFaults r.package ++ [optionFault r.options] ++ patternFaults r ++ [hookFault r.hooks]

end Recipe

-- ============================================================================
-- Each group of checks
-- ============================================================================

theorem checkPackage_eq (p : Package) : checkPackage p = firstFailure (Recipe.packageFaults p) := by
  unfold checkPackage Recipe.packageFaults Recipe.versionFault
  by_cases h1 : p.name.isEmpty = true
  · simp [h1, firstFailure, throw, throwThe, MonadExceptOf.throw, bind, Except.bind]
  · by_cases h2 : p.version.isEmpty = true
    · simp [h1, h2, firstFailure, throw, throwThe, MonadExceptOf.throw, bind, Except.bind]
    · cases hv : Version.parse p.version with
      | error e =>
        simp [h1, h2, firstFailure, throw, throwThe, MonadExceptOf.throw, bind, Except.bind]
      | ok v =>
        by_cases h4 : p.url.isEmpty = true <;>
          simp [h1, h2, h4, firstFailure, throw, throwThe, MonadExceptOf.throw, pure,
            Except.pure]

theorem checkPatterns_eq (r : Recipe) : checkPatterns r = firstFailure (Recipe.patternFaults r) := by
  unfold checkPatterns
  rw [forIn_eq_firstFailure Recipe.exportPatternFault]
  · unfold Recipe.patternFaults Recipe.headerPatternFault
    rw [show ∀ a b c : Option Error, [a, b, c] = [a] ++ [b] ++ [c] from fun _ _ _ => rfl,
      firstFailure_append, firstFailure_append]
    by_cases h1 : r.headers.pattern.isEmpty = true
    · simp [h1, firstFailure, throw, throwThe, MonadExceptOf.throw, bind, Except.bind]
    · cases hg : Glob.compile r.headers.pattern <;>
        cases r.package.exportsSources.findSome? Recipe.exportPatternFault <;>
        simp [h1, firstFailure, throw, throwThe, MonadExceptOf.throw, bind, Except.bind,
          pure, Except.pure]
  · intro p
    unfold Recipe.exportPatternFault
    cases Glob.compile p <;> rfl

-- ============================================================================
-- Validation, and the inputs of a run
-- ============================================================================

/-- Validation makes every check in order: it fails with the error of the first that fails and
otherwise gives the recipe's warnings. -/
theorem validate_eq (r : Recipe) :
    r.validate = match r.faults.findSome? id with
      | some e => .error e
      | none => .ok r.warnings := by
  unfold Recipe.validate Recipe.faults Recipe.hookFault
  rw [checkPackage_eq, checkPatterns_eq]
  unfold firstFailure
  simp only [List.findSome?_append]
  -- each group of checks passes or stops validation with its first error
  cases (Recipe.packageFaults r.package).findSome? id <;> cases optionFault r.options <;>
    cases r.patternFaults.findSome? id <;> cases HookTable.ofEntries r.hooks <;>
    simp [bind, Except.bind, throw, throwThe, MonadExceptOf.throw, pure, Except.pure]

/-- The hooks of a valid recipe register into a table. -/
theorem ofEntries_ok_of_validate {r : Recipe} (h : r.validate.isOk = true) :
    ∃ t, HookTable.ofEntries r.hooks = .ok t := by
  cases hh : HookTable.ofEntries r.hooks with
  | ok t => exact ⟨t, rfl⟩
  | error e =>
    -- the hook check is the last check, so some check fails
    exfalso
    have hf : Recipe.hookFault r.hooks = some e := by simp [Recipe.hookFault, hh]
    rw [validate_eq, Recipe.faults, List.findSome?_append, hf] at h
    simp [Except.isOk, Except.toBool] at h

/-- Making the inputs of a run validates the recipe, registers its hooks again and resolves the
options: it fails with validation's error, else with resolution's, and the second registration
of the hooks never fails. -/
theorem make_eq_error_iff (r : Recipe) (ovs : List (String × String)) (s : Settings)
    (l : Layout) (e : Error) :
    RunContext.make r ovs s l = .error e ↔
      r.validate = .error e ∨
        (r.validate.isOk = true ∧ BuildOptions.resolve r.options ovs = .error e) := by
  unfold RunContext.make
  cases hv : r.validate with
  | error e' => simp [bind, Except.bind, Except.isOk, Except.toBool]
  | ok w =>
    have hok : r.validate.isOk = true := by rw [hv]; rfl
    obtain ⟨t, ht⟩ := ofEntries_ok_of_validate hok
    rw [ht]
    cases BuildOptions.resolve r.options ovs <;>
      simp [bind, Except.bind, pure, Except.pure, Except.isOk, Except.toBool]

/-- Validation fails with the error of the first failing check, in the order: package name,
version, semantic version, url, options in name order, header pattern empty, header pattern a
glob, exported-sources patterns in order, hooks; otherwise it gives the warnings for a missing
license, author and description, a missing `shared` option and a clone depth of zero, in that
order. Making the inputs of a run fails with validation's error, else with the error of
resolving the options, or not at all: once the recipe is valid, its hooks register. -/
theorem validate_first_fault (r : Recipe) (ovs : List (String × String)) (s : Settings)
    (l : Layout) :
    (r.validate = match r.faults.findSome? id with
      | some e => .error e
      | none => .ok r.warnings) ∧
    (∀ e, RunContext.make r ovs s l = .error e ↔
      r.validate = .error e ∨
        (r.validate.isOk = true ∧ BuildOptions.resolve r.options ovs = .error e)) ∧
    (r.validate.isOk = true → ∃ t, HookTable.ofEntries r.hooks = .ok t) :=
  ⟨validate_eq r, make_eq_error_iff r ovs s l, ofEntries_ok_of_validate⟩

/-- A recipe with a name, a version and a url and nothing else. -/
def minimalRecipe : Recipe :=
  { package := { name := "test", version := "1.0.0", url := "https://example.com/test" } }

/-- The minimal recipe is valid, so its hooks register, and an override of an option it does
not declare fails the run's inputs with resolution's error. -/
theorem minimalRecipe_unknown_override :
    minimalRecipe.validate.isOk = true ∧ (∃ t, HookTable.ofEntries minimalRecipe.hooks = .ok t) ∧
    RunContext.make minimalRecipe [("shared", "true")] Settings.standard
        (Layout.rootedAt "/src") = .error (.parse "Unknown option 'shared' (declared: )") := by
  have hv : minimalRecipe.validate.isOk = true := by decide +kernel
  obtain ⟨-, hmake, hhooks⟩ := validate_first_fault minimalRecipe [("shared", "true")]
    Settings.standard (Layout.rootedAt "/src")
  exact ⟨hv, hhooks hv, (hmake _).mpr (.inr ⟨hv, rfl⟩)⟩

end BuildRecipe
