import BuildRecipe.Proofs.Lifecycle.Script
import BuildRecipe.Proofs.FileTree.Frame
/-!
# The calls a lifecycle run makes

Each stage has a plan, the calls it makes when everything succeeds (`stagePlan`): the hook of
the stage when the recipe has one, and otherwise its default calls: the clone of the
release, nothing for the toolchain files, configure then build, install. A whole run plans
the source stage's calls when the configuration fetches, then those of generate, build and
package (`plannedCalls`).

Main statements: against every script, each stage follows its plan, and the whole run
follows the plans of its stages in order (`create_follows`); so it stops at the first call
that fails and fails with that call's error, a source hook's command failure turned into a
fetch failure and every generate hook failure into a generation failure. A generate hook
takes the place of writing the toolchain files: with one, the generate stage puts no file
where its hook puts none (`generate_hook_keeps_noFileAt`).
-/

namespace BuildRecipe

/-- The calls a stage makes when everything succeeds: its hook, when the table has one,
and its default calls otherwise. -/
def stagePlan (hooks : HookTable) (s : Stage) (default : List Call) : List Call :=
  if (hooks.get? s).isSome then [hookCall s] else default

/-- The clone of the release into the folder named after its url, below the source root. -/
def cloneRequest (c : RunContext) : FetchRequest :=
  FetchRequest.of c.recipe.package c.recipe.source
    (Path.join c.layout.sourceRoot c.recipe.cloneDirName)

/-- The calls of a whole run that succeeds: the source stage's when the configuration
fetches, then the generate, build and package stages'. -/
def plannedCalls (cfg : RunConfig) (c : RunContext) : List Call :=
  (if cfg.fetchSource then stagePlan c.hooks .source [.fetch (cloneRequest c)] else []) ++
    stagePlan c.hooks .generate [] ++
    stagePlan c.hooks .build [.tool "configure", .tool "build"] ++
    stagePlan c.hooks .package [.tool "install"]

namespace Script

variable {α : Type} {sc : Script}

/-- A call that is neither the source hook nor the generate hook has its failures reported
unchanged. -/
theorem reports_self {k : Call} (hs : k ≠ hookCall .source) (hg : k ≠ hookCall .generate)
    (e : Error) : Reports k e e := by
  unfold Reports
  rw [if_neg hs, if_neg hg]

-- ============================================================================
-- Each stage follows its plan
-- ============================================================================

theorem fetchSource_follows (cfg : RunConfig) (c : RunContext) :
    Follows sc ((sc.runner cfg).fetchSource c)
      (stagePlan c.hooks .source [.fetch (cloneRequest c)]) fun _ => True := by
  unfold Orchestrator.fetchSource stagePlan
  cases c.hooks.get? .source with
  | none =>
    simp only [Option.isSome_none, Bool.false_eq_true, ↓reduceIte, runner_fetch]
    exact (follows_answer _ (reports_self (by intro h; cases h) (by intro h; cases h))).bind'
      (fun _ _ => follows_pure trivial) (List.append_nil _)
  | some command =>
    simp only [Option.isSome_some, ↓reduceIte, runner_runHook]
    refine (follows_tryCatch_answer _ fun e m => ?_).bind'
      (fun _ _ => (follows_onFiles (.query _)).bind' (fun _ _ => follows_pure trivial) rfl)
      (List.append_nil _)
    -- a failed command becomes a fetch failure, every other error stays as it is
    unfold Reports
    cases e <;> exact ⟨_, rfl, by simp⟩

theorem generate_follows (cfg : RunConfig) (c : RunContext) :
    Follows sc ((sc.runner cfg).generate c) (stagePlan c.hooks .generate []) fun _ => True := by
  unfold Orchestrator.generate stagePlan
  cases c.hooks.get? .generate with
  | none =>
    -- without a hook the stage only writes files
    simp only [Option.isSome_none, Bool.false_eq_true, ↓reduceIte]
    refine follows_onFiles (.bind (.query _) fun _ => .ite ?_ ?_)
    · exact .bind (.change _ _) fun _ => Act.writeToolchainFiles_onFiles _ _ _ _
    · exact Act.writeToolchainFiles_onFiles _ _ _ _
  | some command =>
    simp only [Option.isSome_some, ↓reduceIte, runner_runHook]
    refine (follows_onFiles (.query _)).bind' (fun _ _ => .ite
      ((follows_onFiles (.change _ _)).bind' (fun _ _ => ?_) (List.nil_append _)) ?_)
      (List.nil_append _)
    all_goals
      refine (follows_onFiles (.change _ _)).bind' (fun _ _ => ?_) (List.nil_append _)
      refine (follows_tryCatch_answer _ fun e m => ⟨_, rfl, ?_⟩).bind'
        (fun _ _ => follows_pure trivial) (List.append_nil _)
      -- every failure of the hook becomes a generation failure
      unfold Reports
      rw [if_neg (by decide), if_pos rfl]
      exact ⟨_, rfl⟩

theorem build_follows (cfg : RunConfig) (c : RunContext) :
    Follows sc ((sc.runner cfg).build c)
      (stagePlan c.hooks .build [.tool "configure", .tool "build"]) fun _ => True := by
  unfold Orchestrator.build stagePlan
  cases c.hooks.get? .build with
  | none =>
    simp only [Option.isSome_none, Bool.false_eq_true, ↓reduceIte, runner_configure,
      runner_build]
    refine (follows_onFiles (.query _)).bind' (fun _ _ => .ite (follows_throw_bind _ _ _ _) ?_)
      (List.nil_append _)
    exact (follows_answer _ (reports_self (by decide) (by decide))).bind' (fun _ _ =>
      (follows_answer _ (reports_self (by decide) (by decide))).bind'
        (fun _ _ => follows_pure trivial) (List.append_nil _)) rfl
  | some command =>
    simp only [Option.isSome_some, ↓reduceIte, runner_runHook]
    refine (follows_onFiles (.query _)).bind' (fun _ _ => .ite (follows_throw_bind _ _ _ _) ?_)
      (List.nil_append _)
    exact (follows_answer _ (reports_self (by decide) (by decide))).bind'
      (fun _ _ => follows_pure trivial) (List.append_nil _)

theorem fillPackageFolder_follows (cfg : RunConfig) (c : RunContext) :
    Follows sc ((sc.runner cfg).fillPackageFolder c)
      (stagePlan c.hooks .package [.tool "install"]) fun _ => True := by
  unfold Orchestrator.fillPackageFolder stagePlan
  cases c.hooks.get? .package with
  | none =>
    simp only [Option.isSome_none, Bool.false_eq_true, ↓reduceIte, runner_install]
    exact follows_answer _ (reports_self (by decide) (by decide))
  | some command =>
    simp only [Option.isSome_some, ↓reduceIte, runner_runHook]
    exact follows_answer _ (reports_self (by decide) (by decide))

/-- Packaging calls only what fills the package folder; its other phases work on files. -/
theorem package_follows (cfg : RunConfig) (c : RunContext) :
    Follows sc ((sc.runner cfg).package c) (stagePlan c.hooks .package [.tool "install"])
      fun _ => True := by
  rw [Orchestrator.package_eq_phases]
  refine (follows_onFiles (Orchestrator.clearPackageFolder_onFiles _)).bind'
    (fun _ _ => ?_) (List.nil_append _)
  refine (fillPackageFolder_follows cfg c).bind' (fun _ _ => ?_) (List.append_nil _)
  exact (follows_onFiles (Orchestrator.collectPackage_onFiles _ _)).bind'
    (fun _ _ => follows_onFiles (Orchestrator.writePackageMetadata_onFiles _ _)) rfl

-- ============================================================================
-- The whole run
-- ============================================================================

/-- Generating, building and packaging in one context follow the three stages' plans. -/
theorem stages_follow (cfg : RunConfig) (c : RunContext)
    (f : List String → List StepOutput → PackageReport → α) :
    Follows sc (do
      let generated ← (sc.runner cfg).generate c
      let built ← (sc.runner cfg).build c
      let report ← (sc.runner cfg).package c
      pure (f generated built report))
    (stagePlan c.hooks .generate [] ++
      (stagePlan c.hooks .build [.tool "configure", .tool "build"] ++
        stagePlan c.hooks .package [.tool "install"])) fun _ => True :=
  (generate_follows cfg c).bind fun _ _ => (build_follows cfg c).bind fun _ _ =>
    (package_follows cfg c).bind' (fun _ _ => follows_pure trivial) (List.append_nil _)

theorem create_follows (cfg : RunConfig) (c : RunContext) :
    Follows sc ((sc.runner cfg).create c) (plannedCalls cfg c) fun _ => True := by
  unfold Orchestrator.create plannedCalls
  simp only [runner_config, List.append_assoc]
  by_cases hf : cfg.fetchSource = true
  · simp only [hf, ↓reduceIte]
    refine (fetchSource_follows cfg c).bind fun x _ => ?_
    rw [pure_bind]
    -- the later stages run in the fetched folder, whose context keeps the hooks
    exact stages_follow cfg _ _
  · simp only [hf, Bool.false_eq_true, ↓reduceIte, pure_bind, List.nil_append]
    exact stages_follow cfg _ _

/-- With a generate hook the stage writes no toolchain file: a location that holds no file
keeps holding none unless the hook puts one there. -/
theorem generate_hook_keeps_noFileAt (cfg : RunConfig) (c : RunContext) {command : String}
    (hg : c.hooks.get? .generate = some command) (X : Location)
    (hk : ∀ m, m.files.NoFileAt X → (sc.effect (hookCall .generate) m).files.NoFileAt X) :
    Act.Keeps (fun m => m.files.NoFileAt X) ((sc.runner cfg).generate c) := by
  unfold Orchestrator.generate
  simp only [hg, runner_runHook]
  refine .bind (.query _) fun _ =>
    .ite (.bind (.change _ fun _ _ _ h => FileTree.removeDirAll_noFileAt h) fun _ => ?_) ?_
  all_goals
    exact .bind (.change _ fun _ _ _ h => FileTree.createDirAll_noFileAt h) fun _ =>
      .bind (.tryCatch (keeps_answer (·.NoFileAt X) _ hk) fun _ => .throw _) fun _ => .pure _

/-- Against every script, a run makes the planned calls of its stages in order, stops at the
first call that fails and fails with its error as reported for that call; and with a
generate hook, the generate stage writes no file of its own. -/
theorem create_calls_follow_stage_plans (sc : Script) (cfg : RunConfig) (c : RunContext) :
    Follows sc ((sc.runner cfg).create c) (plannedCalls cfg c) (fun _ => True) ∧
      ∀ command, c.hooks.get? .generate = some command → ∀ X : Location,
        (∀ m, m.files.NoFileAt X → (sc.effect (hookCall .generate) m).files.NoFileAt X) →
        Act.Keeps (fun m => m.files.NoFileAt X) ((sc.runner cfg).generate c) :=
  ⟨create_follows cfg c, fun _ hg X hk => generate_hook_keeps_noFileAt cfg c hg X hk⟩

/-- A generate hook that succeeds and touches nothing leaves the native file unwritten. -/
theorem generate_hook_leaves_nativeFile_unwritten :
    Act.Keeps (fun m => m.files.NoFileAt ["builddir", "native.ini"])
      ((Script.runner ⟨fun _ => .ok default, fun _ m => m⟩ {}).generate
        { (default : RunContext) with hooks := ⟨[(.generate, "true")]⟩ }) :=
  (create_calls_follow_stage_plans _ _ _).2 "true" rfl _ fun _ h => h

end Script

end BuildRecipe
