import BuildRecipe.Proofs.Lifecycle.Staging
/-!
# Going on in the fetched sources

A run that fetches its sources first goes on in the folder they landed in: its context is the
caller's moved to that root (`RunContext.rebased`), and generating, building and packaging all
read the moved context.

Main statements: the moved context has the new root's source and build folders and keeps the
caller's recipe, hooks, options, settings, warnings and package id, but its package folder is
the caller's taken from the new root, which is the caller's folder only when that is absolute
or the new root is empty. So a run with fetching that succeeds reports the caller's package id
and stages into the caller's package folder taken from the fetched folder
(`create_fetch_reports`, `rebased_keeps_inputs_and_moves_package_folder`).
-/

namespace BuildRecipe

namespace Path

theorem join_of_isAbsolute (base : String) {rel : String} (h : isAbsolute rel = true) :
    join base rel = rel := by
  simp [join, h]

/-- A path taken from a base is the path itself only when it is absolute or the base is empty:
otherwise the base stands before it. -/
theorem join_eq_self_iff (base rel : String) :
    join base rel = rel ↔ isAbsolute rel = true ∨ base = "" := by
  unfold join
  split_ifs with habs hsep
  · simp [habs]
  · have hlen : (base ++ rel = rel) ↔ base = "" := by
      constructor
      · intro h
        have h' := congrArg String.length h
        rw [String.length_append] at h'
        exact String.length_eq_zero_iff.mp (by omega)
      · rintro rfl
        simp
    simp [habs, hlen]
  · have hne : base ≠ "" := by
      rintro rfl
      simp at hsep
    have hlen : base ++ "/" ++ rel ≠ rel := by
      intro h
      have h' := congrArg String.length h
      simp only [String.length_append] at h'
      have : "/".length = 1 := rfl
      omega
    simp [habs, hne, hlen]

end Path

namespace RunContext

/-- The moved context: the new root's folders, with the caller's package folder taken from the
new root, and everything else as it was. -/
theorem rebased_eq (c : RunContext) (root : String) :
    c.rebased root =
      { c with layout := ⟨root, Path.join root Layout.buildFolderName,
        Path.join root c.layout.packageFolder⟩ } := by
  -- an absolute package folder is kept, which is what taking it from the root does too
  have hfolder : (if Path.isAbsolute c.layout.packageFolder then c.layout.packageFolder
      else Path.join root c.layout.packageFolder) = Path.join root c.layout.packageFolder := by
    split_ifs with h
    · exact (Path.join_of_isAbsolute root h).symm
    · rfl
  simp only [rebased, Layout.rootedAt, Layout.withPackageFolder, hfolder]

end RunContext

namespace Act.Triple

/-- Every action keeps `True` and answers something. -/
theorem top {α : Type} (a : Act α) : Triple (fun _ => True) a fun _ => True :=
  of_keeps fun _ _ => trivial

end Act.Triple

namespace Orchestrator

open Act

/-- Describing a package reports the folder of the context described. -/
theorem writePackageMetadata_folder (c : RunContext)
    (staged : StepOutput × List String × List String) :
    Triple (fun _ => True) (writePackageMetadata c staged)
      (·.packageFolder = c.layout.packageFolder) := by
  obtain ⟨output, headers, artifacts⟩ := staged
  unfold writePackageMetadata
  exact .bind (.top _) fun _ _ => .bind (.top _) fun _ _ => .bind (.top _) fun _ _ => .pure rfl

/-- The package stage reports the package folder of its context. -/
theorem package_reports_folder (o : Orchestrator) (c : RunContext) :
    Triple (fun _ => True) (o.package c) (·.packageFolder = c.layout.packageFolder) := by
  rw [package_eq_phases]
  exact .bind (.top _) fun _ _ => .bind (.top _) fun _ _ => .bind (.top _) fun staged _ =>
    writePackageMetadata_folder c staged

/-- A run with fetching that succeeds reports the caller's package id and warnings, the folder
its sources were fetched into, and the caller's package folder taken from that folder. -/
theorem create_fetch_reports (o : Orchestrator) (c : RunContext)
    (hf : o.config.fetchSource = true) :
    Triple (fun _ => True) (o.create c) fun r => ∃ dir, r.fetchedSource = some dir ∧
      r.packageId = c.packageId ∧ r.warnings = c.warnings ∧
      r.package.packageFolder = Path.join dir c.layout.packageFolder := by
  unfold create
  rw [if_pos hf]
  refine .bind (.top _) fun y _ => ?_
  obtain ⟨dir, output⟩ := y
  -- the later stages read the context moved to the folder the sources were fetched into
  refine .bind (Q := fun x => x = (c.rebased dir, some dir, appendOutput "" "source" output))
    (.pure rfl) fun x hx => ?_
  subst hx
  refine .bind (.top _) fun _ _ => .bind (.top _) fun _ _ =>
    .bind (package_reports_folder o _) fun report hr => .pure ⟨dir, rfl, rfl, rfl, ?_⟩
  rw [hr, RunContext.rebased_eq]

/-- Moving a context to another root gives the new root's source and build folders and keeps
the recipe, hooks, options, settings, warnings and so the package id; its package folder is the
caller's taken from the new root, which is the caller's folder exactly when that is absolute or
the root is empty. A run that fetches its sources and succeeds reports the caller's package id
and stages into the caller's package folder taken from the folder the sources landed in. -/
theorem rebased_keeps_inputs_and_moves_package_folder (c : RunContext) (root : String)
    (fresh : Bool) (tool : BuildTool) (fetcher : Fetcher) (shell : CommandShell) :
    (c.rebased root).layout.sourceRoot = root ∧
    (c.rebased root).layout.buildRoot = Path.join root "builddir" ∧
    (c.rebased root).layout.packageFolder = Path.join root c.layout.packageFolder ∧
    ((c.rebased root).layout.packageFolder = c.layout.packageFolder ↔
      Path.isAbsolute c.layout.packageFolder = true ∨ root = "") ∧
    (c.rebased root).recipe = c.recipe ∧ (c.rebased root).hooks = c.hooks ∧
    (c.rebased root).options = c.options ∧ (c.rebased root).settings = c.settings ∧
    (c.rebased root).warnings = c.warnings ∧ (c.rebased root).packageId = c.packageId ∧
    ∀ m r m', ((⟨⟨true, fresh⟩, tool, fetcher, shell⟩ : Orchestrator).create c).run m =
        (.ok r, m') →
      ∃ dir, r.fetchedSource = some dir ∧ r.packageId = c.packageId ∧ r.warnings = c.warnings ∧
        r.package.packageFolder = Path.join dir c.layout.packageFolder := by
  rw [RunContext.rebased_eq]
  refine ⟨rfl, rfl, rfl, Path.join_eq_self_iff _ _, rfl, rfl, rfl, rfl, rfl, rfl, ?_⟩
  intro m r m' hrun
  exact ((create_fetch_reports _ c rfl).of_run trivial hrun).2

end Orchestrator

end BuildRecipe
