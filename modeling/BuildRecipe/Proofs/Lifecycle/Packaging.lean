import BuildRecipe.Proofs.Lifecycle.Phases
import BuildRecipe.Proofs.Layout.Containment
import BuildRecipe.Lifecycle.Simulated
import BuildRecipe.Lifecycle.MachineShell
/-!
# Packaging does not depend on what the package folder held

The package stage checks where the folder lies, in the tree it starts from, then clears it: it
removes the folder when its path names something, and makes it again. From a tree where that empties the folder
(`FileTree.Clearable`: the folder is a directory its path reaches along directories, or
nothing lies at or below it) the stage is the rest of it run on the tree with everything at
and below the folder erased (`Orchestrator.package_run_of_clearable`). A well-formed tree
with no file at the folder is of this kind when the folder's path has no `..`
(`FileTree.WellFormed.clearable`). A path through `..` is resolved the way it is written, so
a directory missing on the way hides a folder that exists, and nothing is removed.

The check reads the tree too, so two trees that differ only below the folder can get different
verdicts (`Layout.check_congr` says when they cannot); the statements about two trees ask
that both pass it.

Main statements:
* a folder the layout check refuses fails the stage with the check's error, a configuration
  error, on an unchanged machine (`Orchestrator.package_of_check_error`);
* two trees that pass the check and differ only below the folder give one outcome and one
  tree, when filling the folder reads only the tree
  (`Orchestrator.package_congr_of_eraseBelow`);
* a second run after a successful one that wrote only inside the folder gives the same
  report and leaves the tree as it was (`Orchestrator.package_twice`);
* a file below the folder after the stage was put there by filling the folder, by the
  header copy, or after artifacts were found (`Orchestrator.package_file_below_folder`).
-/

namespace BuildRecipe

namespace Layout

theorem lexical_empty : Path.lexical "" = [] := by
  decide

/-- A layout that passes the check has a package folder. -/
theorem packageFolder_ne_empty {l : Layout} {t : FileTree} {cwd : Location}
    (hc : l.check t cwd = .ok ()) : l.packageFolder ≠ "" := by
  intro he
  -- the empty path names nothing and begins every path, so it covers the source root
  have hcov : l.covers t cwd l.sourceRoot = true := by
    rw [covers, he, resolve_of_not_pathExists (FileTree.pathExists_empty cwd), lexical_empty]
    rfl
  rw [check_of_covers_source l hcov] at hc
  cases hc

/-- The check refuses a layout only with a configuration error. -/
theorem check_error_configuration {l : Layout} {t : FileTree} {cwd : Location} {e : Error}
    (hc : l.check t cwd = .error e) : ∃ text, e = .configuration text := by
  unfold check at hc
  split at hc
  · cases hc
    exact ⟨_, rfl⟩
  · split at hc
    · cases hc
      exact ⟨_, rfl⟩
    · cases hc

end Layout

namespace FileTree

variable {t : FileTree}

/-- Clearing the folder a path denotes empties it: the folder is a directory the path reaches
along directories, or nothing lies at or below it. -/
def Clearable (t : FileTree) (cwd : Location) (p : String) : Prop :=
  (t.descend cwd (Path.components p) = .ok (Path.denote cwd p) ∧
      t.get? (Path.denote cwd p) = some .directory) ∨
    (t.get? (Path.denote cwd p) = none ∧ t.eraseBelow (Path.denote cwd p) = t)

/-- In a well-formed tree, a folder written without `..` and holding no file is cleared. -/
theorem WellFormed.clearable (h : t.WellFormed) {cwd : Location} {p : String}
    (hp : .parent ∉ Path.components p) (hL : t.NoFileAt (Path.denote cwd p)) :
    t.Clearable cwd p := by
  cases hg : t.get? (Path.denote cwd p) with
  | none => exact .inr ⟨hg, h.eraseBelow_of_get?_none hg⟩
  | some n =>
    have hdir : t.get? (Path.denote cwd p) = some .directory := by rw [hg, hL n hg]
    exact .inl ⟨h.descend_components hp hdir, hdir⟩

/-- Erasing a folder leaves no file at or below it. -/
theorem noFileAt_eraseBelow_of_isPrefix {L X : Location} (hX : L <+: X) :
    (t.eraseBelow L).NoFileAt X := by
  intro n hn
  rw [get?_eraseBelow] at hn
  by_cases hx : X = []
  · rw [if_neg fun h => h.2 hx, hx, get?_root] at hn
    exact (Option.some.inj hn).symm
  · rw [if_pos ⟨hX, hx⟩] at hn
    cases hn

end FileTree

namespace SimulatedTool

-- ============================================================================
-- The stand-in build tool reads only the tree
-- ============================================================================

theorem step_readsTree (s : SimulatedTool) (name : String) : Act.ReadsTree (s.step name) := by
  unfold step
  refine (Act.ReadsTree.record _).bind fun _ => ?_
  dsimp only
  exact (Act.OnFiles.ite (.bind (.throw _) fun _ => .pure _) (.pure _)).readsTree

theorem place_onFiles (path content : String) : Act.OnFiles (place path content) := by
  unfold place
  dsimp only
  split
  · exact .bind (.change _ _) fun _ => .change _ _
  · exact .change _ _

theorem installLibrary_onFiles (l : Layout) (name version : String) :
    Act.OnFiles (installLibrary l name version) := by
  unfold installLibrary
  refine .bind (.attempt _ _) fun _ => .bind (.change _ _) fun _ => ?_
  dsimp only
  exact .ite (.bind (.change _ _) fun _ => .bind (.change _ _) fun _ =>
      .bind (.change _ _) fun _ => .change _ _)
    (.bind (.change _ _) fun _ => .bind (.change _ _) fun _ => .change _ _)

/-- What the stand-in install answers and writes follows from the tree and the working
directory, whatever it records. -/
theorem install_readsTree (s : SimulatedTool) (name version : String) (l : Layout) :
    Act.ReadsTree ((s.toBuildTool name version).install l) := by
  refine (s.step_readsTree "install").bind fun out => Act.OnFiles.readsTree ?_
  dsimp only
  split
  · exact .bind (.forIn _ _ fun _ _ => .bind (place_onFiles _ _) fun _ => .pure _) fun _ =>
      .pure out
  · exact .bind (installLibrary_onFiles l name version) fun _ => .pure out

end SimulatedTool

namespace Orchestrator

-- ============================================================================
-- Clearing the folder
-- ============================================================================

/-- The package stage from the point where the folder was emptied: make it, fill it, collect
and describe. -/
def packageFromCleared (o : Orchestrator) (c : RunContext) : Act PackageReport := do
  Act.change Error.ofFault (·.createDirAll · c.layout.packageFolder)
  let output ← o.fillPackageFolder c
  let staged ← collectPackage c output
  writePackageMetadata c staged

theorem clearPackageFolder_run {l : Layout} {m : Machine} (hc : l.check m.files m.cwd = .ok ())
    (hcl : m.files.Clearable m.cwd l.packageFolder) :
    (clearPackageFolder l).run m =
      (Act.change Error.ofFault (·.createDirAll · l.packageFolder)).run
        { m with files := m.files.eraseBelow (Path.denote m.cwd l.packageFolder) } := by
  unfold clearPackageFolder
  rw [Act.run_bind, Act.run_query]
  dsimp only
  rw [Act.run_bind, Act.run_ofOutcome, hc]
  dsimp only
  rw [Act.run_bind, Act.run_query]
  dsimp only
  rcases hcl with ⟨hd, hL⟩ | ⟨hL, herase⟩
  · -- the folder exists: it goes with everything below it
    have hne := Layout.packageFolder_ne_empty hc
    rw [FileTree.pathExists_of_descend hne hd hL, if_pos rfl, Act.run_bind, Act.run_change,
      FileTree.removeDirAll_of_descend hne hd hL]
  · -- nothing is there, and nothing below it
    rw [FileTree.pathExists_of_get?_none hL, herase]
    rfl

/-- From a tree where clearing empties the folder, the package stage is the rest of it on the
tree with everything at and below the folder erased. -/
theorem package_run_of_clearable (o : Orchestrator) (c : RunContext) {m : Machine}
    (hc : c.layout.check m.files m.cwd = .ok ()) (hcl : m.files.Clearable m.cwd c.layout.packageFolder) :
    (o.package c).run m = (o.packageFromCleared c).run
      { m with files := m.files.eraseBelow (Path.denote m.cwd c.layout.packageFolder) } := by
  rw [package_eq_phases, Act.run_bind, clearPackageFolder_run hc hcl, packageFromCleared,
    Act.run_bind]

/-- Once the folder is empty, what the stage does reads only the tree, when filling the
folder does. -/
theorem packageFromCleared_readsTree (o : Orchestrator) (c : RunContext)
    (hf : Act.ReadsTree (o.fillPackageFolder c)) : Act.ReadsTree (o.packageFromCleared c) := by
  unfold packageFromCleared
  exact (Act.OnFiles.change _ _).readsTree.bind fun _ => hf.bind fun output =>
    (collectPackage_onFiles c output).readsTree.bind fun staged =>
      (writePackageMetadata_onFiles c staged).readsTree

-- ============================================================================
-- A refused folder
-- ============================================================================

theorem package_of_check_error (o : Orchestrator) (c : RunContext) {e : Error} {m : Machine}
    (hc : c.layout.check m.files m.cwd = .error e) : (o.package c).run m = (.error e, m) := by
  rw [package_eq_phases, Act.run_bind]
  unfold clearPackageFolder
  rw [Act.run_bind, Act.run_query]
  dsimp only
  rw [Act.run_bind, Act.run_ofOutcome, hc]

-- ============================================================================
-- Trees that differ only below the folder
-- ============================================================================

/-- Two machines in one working directory whose trees, each passing the check and cleared by the
stage, differ only below the package folder, give one outcome and one tree. -/
theorem package_congr_of_eraseBelow (o : Orchestrator) (c : RunContext)
    (hf : Act.ReadsTree (o.fillPackageFolder c)) {m m' : Machine}
    (hc : c.layout.check m.files m.cwd = .ok ()) (hc' : c.layout.check m'.files m'.cwd = .ok ())
    (hcwd : m.cwd = m'.cwd) (hcl : m.files.Clearable m.cwd c.layout.packageFolder)
    (hcl' : m'.files.Clearable m'.cwd c.layout.packageFolder)
    (he : m.files.eraseBelow (Path.denote m.cwd c.layout.packageFolder) =
      m'.files.eraseBelow (Path.denote m.cwd c.layout.packageFolder)) :
    ((o.package c).run m).1 = ((o.package c).run m').1 ∧
      ((o.package c).run m).2.files = ((o.package c).run m').2.files := by
  rw [package_run_of_clearable o c hc hcl, package_run_of_clearable o c hc' hcl']
  -- after clearing, the two machines hold one tree
  have he' : m.files.eraseBelow (Path.denote m.cwd c.layout.packageFolder) =
      m'.files.eraseBelow (Path.denote m'.cwd c.layout.packageFolder) := by
    rw [← hcwd]
    exact he
  obtain ⟨hr, hfiles, -⟩ := packageFromCleared_readsTree o c hf
    { m with files := m.files.eraseBelow (Path.denote m.cwd c.layout.packageFolder) }
    { m' with files := m'.files.eraseBelow (Path.denote m'.cwd c.layout.packageFolder) } he' hcwd
  exact ⟨hr, hfiles⟩

-- ============================================================================
-- Packaging twice
-- ============================================================================

theorem manifestFile_isPlainName : Path.IsPlainName manifestFile := by
  decide

/-- Describing a package writes the manifest last. -/
theorem writePackageMetadata_writes_manifest (c : RunContext)
    {staged : StepOutput × List String × List String} {m m' : Machine} {r : PackageReport}
    (h : (writePackageMetadata c staged).run m = (.ok r, m')) :
    ∃ (t : FileTree) (text : String),
      t.writeText m'.cwd (Path.join c.layout.packageFolder manifestFile) text = .ok m'.files := by
  obtain ⟨output, headers, artifacts⟩ := staged
  unfold writePackageMetadata at h
  obtain ⟨_, _, -, h⟩ := Act.run_bind_ok h
  obtain ⟨_, _, -, h⟩ := Act.run_bind_ok h
  obtain ⟨_, m₃, hw, h⟩ := Act.run_bind_ok h
  cases h
  rw [Act.run_change] at hw
  split at hw
  · rename_i t' ht
    cases hw
    exact ⟨_, _, ht⟩
  · cases hw

theorem package_ok_writes_manifest (o : Orchestrator) (c : RunContext) {m m₁ : Machine}
    {r : PackageReport} (h : (o.package c).run m = (.ok r, m₁)) :
    ∃ (t : FileTree) (text : String),
      t.writeText m₁.cwd (Path.join c.layout.packageFolder manifestFile) text = .ok m₁.files := by
  rw [package_eq_phases] at h
  obtain ⟨_, _, -, h⟩ := Act.run_bind_ok h
  obtain ⟨_, _, -, h⟩ := Act.run_bind_ok h
  obtain ⟨_, _, -, h⟩ := Act.run_bind_ok h
  exact writePackageMetadata_writes_manifest c h

/-- After a successful stage the folder is a directory its path reaches, so the next stage
clears it: the manifest was written one name below it, through it. -/
theorem clearable_of_package_ok (o : Orchestrator) (c : RunContext)
    (hp : .parent ∉ Path.components c.layout.packageFolder) {m m₁ : Machine} {r : PackageReport}
    (h : (o.package c).run m = (.ok r, m₁)) :
    m₁.files.Clearable m₁.cwd c.layout.packageFolder := by
  obtain ⟨t, text, hw⟩ := package_ok_writes_manifest o c h
  obtain ⟨hd, md, ht⟩ := FileTree.writeFileWith_ok hw
  rw [Path.components_join_plain _ manifestFile_isPlainName] at hd
  obtain ⟨hd', hdir⟩ := FileTree.descend_append_normal hd
  -- the manifest lies one name below the folder, so on no way to it
  have hX : ¬ Path.denote m₁.cwd (Path.join c.layout.packageFolder manifestFile) <+:
      Path.denote m₁.cwd c.layout.packageFolder := by
    rw [Path.denote_join_plain _ _ manifestFile_isPlainName]
    intro hpre
    have hlen := hpre.length_le
    rw [List.length_append, List.length_singleton] at hlen
    omega
  have hne : Path.denote m₁.cwd c.layout.packageFolder ≠
      Path.denote m₁.cwd (Path.join c.layout.packageFolder manifestFile) :=
    fun he => hX (he ▸ List.prefix_refl _)
  refine .inl ⟨?_, ?_⟩
  · rw [ht, FileTree.descend_components_set hp hX]
    exact hd'
  · rw [ht, FileTree.get?_set_ne _ _ hne]
    exact hdir

/-- A second package stage after a successful one that wrote only inside the folder gives the
same report and leaves the tree as the first did, when the layout still passes the check. -/
theorem package_twice (o : Orchestrator) (c : RunContext)
    (hp : .parent ∉ Path.components c.layout.packageFolder)
    (hf : Act.ReadsTree (o.fillPackageFolder c)) {m m₁ : Machine} {r : PackageReport}
    (h : (o.package c).run m = (.ok r, m₁)) (hwf : m.files.WellFormed)
    (hL : m.files.NoFileAt (Path.denote m.cwd c.layout.packageFolder))
    (hin : m₁.files.eraseBelow (Path.denote m.cwd c.layout.packageFolder) =
      m.files.eraseBelow (Path.denote m.cwd c.layout.packageFolder))
    (hc₁ : c.layout.check m₁.files m₁.cwd = .ok ()) :
    ∃ m₂, (o.package c).run m₁ = (.ok r, m₂) ∧ m₂.files = m₁.files := by
  -- the first stage passed the check
  have hc : c.layout.check m.files m.cwd = .ok () := by
    cases hcheck : c.layout.check m.files m.cwd with
    | ok u => rfl
    | error e =>
      rw [package_of_check_error o c hcheck] at h
      cases h
  have hcl := hwf.clearable hp hL
  -- the stage keeps the working directory
  have hcwd : m₁.cwd = m.cwd := by
    have hkeep := (packageFromCleared_readsTree o c hf
      { m with files := m.files.eraseBelow (Path.denote m.cwd c.layout.packageFolder) } _ rfl
      rfl).2.2
    rwa [← package_run_of_clearable o c hc hcl, h] at hkeep
  have hin' : m₁.files.eraseBelow (Path.denote m₁.cwd c.layout.packageFolder) =
      m.files.eraseBelow (Path.denote m₁.cwd c.layout.packageFolder) := by
    rw [hcwd]
    exact hin
  obtain ⟨hr, hfiles⟩ := package_congr_of_eraseBelow o c hf hc₁ hc hcwd
    (clearable_of_package_ok o c hp h) hcl hin'
  rw [h] at hr hfiles
  exact ⟨((o.package c).run m₁).2, Prod.ext hr rfl, hfiles⟩

-- ============================================================================
-- Files below the folder
-- ============================================================================

/-- The package stage is its first three phases, up to the artifacts found, and then the
description of what they staged. -/
theorem package_eq_staged (o : Orchestrator) (c : RunContext) :
    o.package c = (do
      let staged ← (do
        clearPackageFolder c.layout
        let output ← o.fillPackageFolder c
        collectPackage c output)
      writePackageMetadata c staged) := by
  rw [package_eq_phases]
  simp only [bind_assoc]

theorem collectPackage_keeps {I : Machine → Prop} (c : RunContext) (output : StepOutput)
    (hcopy : Act.Keeps I (copyHeaders c.recipe.headers c.layout.sourceRoot
      c.layout.packageFolder)) :
    Act.Keeps I (collectPackage c output) := by
  unfold collectPackage
  refine .bind hcopy fun _ => .bind (.query _) fun _ => ?_
  dsimp only
  exact .ite (.bind (.throw _) fun _ => .pure _) (.pure _)

/-- Collecting succeeds only with artifacts. -/
theorem collectPackage_artifacts_ne_nil (c : RunContext) {output : StepOutput}
    {staged : StepOutput × List String × List String} {m m' : Machine}
    (h : (collectPackage c output).run m = (.ok staged, m')) : staged.2.2 ≠ [] := by
  unfold collectPackage at h
  obtain ⟨headers, _, -, h⟩ := Act.run_bind_ok h
  obtain ⟨artifacts, _, -, h⟩ := Act.run_bind_ok h
  dsimp only at h
  by_cases he : artifacts.isEmpty = true
  · rw [if_pos he, Act.run_bind, Act.run_throw] at h
    cases h
  · rw [if_neg he] at h
    cases h
    exact fun hnil => he (List.isEmpty_iff.mpr hnil)

/-- Clearing leaves no file at or below the folder, whether or not making it again succeeds. -/
theorem clearPackageFolder_noFileAt {l : Layout} {m : Machine}
    (hc : l.check m.files m.cwd = .ok ())
    (hcl : m.files.Clearable m.cwd l.packageFolder) {X : Location}
    (hX : Path.denote m.cwd l.packageFolder <+: X) :
    ((clearPackageFolder l).run m).2.files.NoFileAt X := by
  have herased := FileTree.noFileAt_eraseBelow_of_isPrefix (t := m.files) hX
  rw [clearPackageFolder_run hc hcl, Act.run_change]
  split
  · rename_i t' ht
    exact FileTree.createDirAll_noFileAt ht herased
  · exact herased

/-- A file at or below the package folder after the stage was put there by filling the folder
or by the header copy, or the stage went past collecting and found artifacts: the
pkg-config file and the manifest are written only after that. -/
theorem package_file_below_folder (o : Orchestrator) (c : RunContext) {m : Machine}
    (hc : c.layout.check m.files m.cwd = .ok ())
    (hcl : m.files.Clearable m.cwd c.layout.packageFolder) {X : Location}
    (hX : Path.denote m.cwd c.layout.packageFolder <+: X)
    (hfill : Act.Keeps (·.files.NoFileAt X) (o.fillPackageFolder c))
    (hcopy : Act.Keeps (·.files.NoFileAt X)
      (copyHeaders c.recipe.headers c.layout.sourceRoot c.layout.packageFolder))
    (hfile : ¬ ((o.package c).run m).2.files.NoFileAt X) :
    ∃ staged m₃, (do
        clearPackageFolder c.layout
        let output ← o.fillPackageFolder c
        collectPackage c output).run m = (.ok staged, m₃) ∧ staged.2.2 ≠ [] := by
  -- up to the artifacts, the stage leaves no file at `X`
  have hstaged := Act.Keeps.of_run_bind (clearPackageFolder_noFileAt hc hcl hX) fun _ =>
    Act.Keeps.bind hfill fun output => collectPackage_keeps c output hcopy
  rw [package_eq_staged, Act.run_bind] at hfile
  rcases hs : (do
      clearPackageFolder c.layout
      let output ← o.fillPackageFolder c
      collectPackage c output).run m with ⟨r, m₃⟩
  rw [hs] at hstaged hfile
  cases r with
  | ok staged =>
    refine ⟨staged, m₃, hs, ?_⟩
    obtain ⟨_, _, -, h⟩ := Act.run_bind_ok hs
    obtain ⟨_, _, -, h⟩ := Act.run_bind_ok h
    exact collectPackage_artifacts_ne_nil c h
  | error e => exact absurd hstaged hfile

-- ============================================================================
-- The package stage and the folder's old contents
-- ============================================================================

/-- The package stage does not depend on what the package folder held. The check reads the
tree only through whether each relative folder names something. A folder the check refuses
fails the stage with the check's configuration error on an unchanged machine. A folder written
without `..` is cleared first, so when filling it reads only the tree, two well-formed trees
that pass the check, hold no file at the folder and differ only below it give one outcome and
one tree, and a second stage after a successful one that wrote only inside the folder gives
the same report and tree when the layout still passes the check. A file left at or below the
folder was put there by filling it or by the header copy, or the stage got past finding
artifacts. -/
theorem package_independent_of_folder_contents (o : Orchestrator) (c : RunContext) :
    (∀ (t t' : FileTree) (cwd : Location),
      (∀ p ∈ [c.layout.sourceRoot, c.layout.buildRoot, c.layout.packageFolder],
        Path.isAbsolute p = true ∨ t.pathExists cwd p = t'.pathExists cwd p) →
      c.layout.check t cwd = c.layout.check t' cwd) ∧
    (∀ e m, c.layout.check m.files m.cwd = .error e →
      (∃ text, e = .configuration text) ∧ (o.package c).run m = (.error e, m)) ∧
    (.parent ∉ Path.components c.layout.packageFolder →
      (Act.ReadsTree (o.fillPackageFolder c) →
        (∀ m m' : Machine, c.layout.check m.files m.cwd = .ok () →
          c.layout.check m'.files m'.cwd = .ok () → m.cwd = m'.cwd →
          m.files.WellFormed → m'.files.WellFormed →
          m.files.NoFileAt (Path.denote m.cwd c.layout.packageFolder) →
          m'.files.NoFileAt (Path.denote m.cwd c.layout.packageFolder) →
          m.files.eraseBelow (Path.denote m.cwd c.layout.packageFolder) =
            m'.files.eraseBelow (Path.denote m.cwd c.layout.packageFolder) →
          ((o.package c).run m).1 = ((o.package c).run m').1 ∧
            ((o.package c).run m).2.files = ((o.package c).run m').2.files) ∧
        (∀ m m₁ r, (o.package c).run m = (.ok r, m₁) → m.files.WellFormed →
          m.files.NoFileAt (Path.denote m.cwd c.layout.packageFolder) →
          m₁.files.eraseBelow (Path.denote m.cwd c.layout.packageFolder) =
            m.files.eraseBelow (Path.denote m.cwd c.layout.packageFolder) →
          c.layout.check m₁.files m₁.cwd = .ok () →
          ∃ m₂, (o.package c).run m₁ = (.ok r, m₂) ∧ m₂.files = m₁.files)) ∧
      (∀ (m : Machine) (X : Location), c.layout.check m.files m.cwd = .ok () →
        m.files.WellFormed →
        m.files.NoFileAt (Path.denote m.cwd c.layout.packageFolder) →
        Path.denote m.cwd c.layout.packageFolder <+: X →
        Act.Keeps (·.files.NoFileAt X) (o.fillPackageFolder c) →
        Act.Keeps (·.files.NoFileAt X)
          (copyHeaders c.recipe.headers c.layout.sourceRoot c.layout.packageFolder) →
        ¬ ((o.package c).run m).2.files.NoFileAt X →
        ∃ staged m₃, (do
            clearPackageFolder c.layout
            let output ← o.fillPackageFolder c
            collectPackage c output).run m = (.ok staged, m₃) ∧ staged.2.2 ≠ [])) := by
  refine ⟨fun t t' cwd h => Layout.check_congr h,
    fun e m hc => ⟨Layout.check_error_configuration hc, package_of_check_error o c hc⟩,
    fun hp => ⟨fun hf => ⟨?_, ?_⟩, ?_⟩⟩
  · intro m m' hc hc' hcwd hwf hwf' hL hL' he
    have hL'' : m'.files.NoFileAt (Path.denote m'.cwd c.layout.packageFolder) := by
      rw [← hcwd]
      exact hL'
    exact package_congr_of_eraseBelow o c hf hc hc' hcwd (hwf.clearable hp hL)
      (hwf'.clearable hp hL'') he
  · intro m m₁ r h hwf hL hin hc₁
    exact package_twice o c hp hf h hwf hL hin hc₁
  · intro m X hc hwf hL hX hfill hcopy hfile
    exact package_file_below_folder o c hc (hwf.clearable hp hL) hX hfill hcopy hfile

/-- The library `fm` at `1.0.0`, its sources under `/src` and its package folder
`/src/package`. -/
def sampleContext : RunContext :=
  { (default : RunContext) with
    recipe := { package := { name := "fm", version := "1.0.0", url := "https://example.org/fm" } }
    layout := Layout.rootedAt "/src" }

/-- The stand-in tools, installing the static library of `fm`. -/
def sampleOrchestrator : Orchestrator where
  tool := ({ install := some ["lib/libfm.a"] } : SimulatedTool).toBuildTool "fm" "1.0.0"
  fetcher := simulatedFetcher false
  shell := machineShell

/-- A package folder that holds a stale file. -/
def staleMachine : Machine :=
  { files := ⟨[(["src"], .directory), (["src", "package"], .directory),
      (["src", "package", "stale.txt"], .file "old" 420)]⟩ }

/-- Packaging `fm` twice over a stale file: the first stage succeeds, and the second gives its
outcome again and leaves the tree as it was. -/
theorem sample_package_twice :
    ((sampleOrchestrator.package sampleContext).run staleMachine).1.toBool = true ∧
      ∃ m₂, (sampleOrchestrator.package sampleContext).run
          ((sampleOrchestrator.package sampleContext).run staleMachine).2 =
        (((sampleOrchestrator.package sampleContext).run staleMachine).1, m₂) ∧
        m₂.files = ((sampleOrchestrator.package sampleContext).run staleMachine).2.files := by
  have hok : ((sampleOrchestrator.package sampleContext).run staleMachine).1.toBool = true := by
    decide +kernel
  refine ⟨hok, ?_⟩
  have hc₁ : sampleContext.layout.check
      ((sampleOrchestrator.package sampleContext).run staleMachine).2.files
      ((sampleOrchestrator.package sampleContext).run staleMachine).2.cwd = .ok () := by
    decide +kernel
  have hnone : sampleContext.hooks.get? .package = none := by decide +kernel
  have hf : Act.ReadsTree (sampleOrchestrator.fillPackageFolder sampleContext) := by
    rw [fillPackageFolder_of_none _ _ hnone]
    exact SimulatedTool.install_readsTree { install := some ["lib/libfm.a"] } "fm" "1.0.0" _
  have hp : .parent ∉ Path.components sampleContext.layout.packageFolder := by decide +kernel
  have hwf : staleMachine.files.WellFormed := by decide +kernel
  have hL : staleMachine.files.NoFileAt
      (Path.denote staleMachine.cwd sampleContext.layout.packageFolder) := by decide +kernel
  -- the first stage wrote only inside the folder
  have hin : ((sampleOrchestrator.package sampleContext).run staleMachine).2.files.eraseBelow
        (Path.denote staleMachine.cwd sampleContext.layout.packageFolder) =
      staleMachine.files.eraseBelow
        (Path.denote staleMachine.cwd sampleContext.layout.packageFolder) := by
    decide +kernel
  cases h1 : ((sampleOrchestrator.package sampleContext).run staleMachine).1 with
  | error e =>
    rw [h1] at hok
    cases hok
  | ok r =>
    have h := Act.run_eq_of_fst_eq_ok h1
    exact (((package_independent_of_folder_contents sampleOrchestrator sampleContext).2.2 hp).1
      hf).2 staleMachine _ r h hwf hL hin hc₁

/-- The header rule of `fm` changed to copy the `*.json` files of `meta` into the package
folder itself. -/
def manifestCopyContext : RunContext :=
  { sampleContext with
    recipe := { package := { name := "fm", version := "1.0.0", url := "https://example.org/fm" }
                headers := { pattern := "*.json", src := "meta", dst := "." } } }

/-- A build tool that records its calls and installs nothing. -/
def recordingOrchestrator : Orchestrator where
  tool := BuildTool.recording
  fetcher := simulatedFetcher false
  shell := machineShell

/-- Sources that hold a file named like the manifest. -/
def manifestSourceMachine : Machine :=
  { files := ⟨[(["src"], .directory), (["src", "meta"], .directory),
      (["src", "meta", "kiln_manifest.json"], .file "{}" 420)]⟩ }

/-- A stage that fails before describing anything can still leave a manifest in the package
folder when install wrote none: the header copy put it there before no artifact was found. -/
theorem header_copy_leaves_manifest :
    manifestCopyContext.layout.check manifestSourceMachine.files manifestSourceMachine.cwd =
        .ok () ∧
      .parent ∉ Path.components manifestCopyContext.layout.packageFolder ∧
      manifestSourceMachine.files.WellFormed ∧
      manifestSourceMachine.files.NoFileAt
        (Path.denote manifestSourceMachine.cwd manifestCopyContext.layout.packageFolder) ∧
      Act.Keeps (·.files.NoFileAt ["src", "package", manifestFile])
        (recordingOrchestrator.fillPackageFolder manifestCopyContext) ∧
      ((do
          clearPackageFolder manifestCopyContext.layout
          let output ← recordingOrchestrator.fillPackageFolder manifestCopyContext
          collectPackage manifestCopyContext output).run manifestSourceMachine).1.toBool =
        false ∧
      ((recordingOrchestrator.package manifestCopyContext).run manifestSourceMachine).2.files.get?
        ["src", "package", manifestFile] = some (.file "{}" 420) := by
  refine ⟨by decide +kernel, by decide +kernel, by decide +kernel, by decide +kernel, ?_,
    by decide +kernel, by decide +kernel⟩
  -- the recording tool's install only records its call
  intro m hm
  exact hm

end Orchestrator

end BuildRecipe
