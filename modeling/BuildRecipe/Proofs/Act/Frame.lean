import BuildRecipe.Lifecycle.Orchestrator
import Mathlib.Tactic.Choose
/-!
# Running actions, and actions on the file tree alone

The run of an action is computed from the runs of its parts: a bind runs its first part
and, when that succeeds, the rest on the machine it left; a failure ends the run with the
machine as it was at the failure. One equation per building block (`run_bind`,
`run_tryCatch`, `run_change`, ...) lets later proofs take a run apart without unfolding
the monad.

An action works *on files* (`Act.OnFiles`) when its outcome and the tree it leaves are a
function of the file tree and the working directory, and it leaves the rest of the machine
(environment, journal, console) as it was. Every step the lifecycle takes by itself is of
this kind: queries and changes of the tree, copying headers, writing the toolchain files.
Main statements: the kind is closed under `pure`, `throw`, bind, branches and loops, and
copying headers (`copyHeaders_onFiles`) and writing the toolchain files
(`writeToolchainFiles_onFiles`) are of this kind, so such a step keeps the journal
(`OnFiles.run_journal`) and two machines with one tree give one outcome
(`OnFiles.run_congr`).

An action *keeps* a property of machines (`Act.Keeps`) when every run from a machine with
the property ends in one with it, failed runs included. Keeping is closed under the same
building blocks and under catching errors, and a change of the tree keeps a property of
trees that each successful change keeps (`Keeps.change`).

An action *reads the tree* (`Act.ReadsTree`) when it keeps the working directory and its
outcome and tree are a function of the tree and the working directory, whatever else it does
to the machine; it is closed under bind (`ReadsTree.bind`), and every action on files reads
the tree.
-/

namespace BuildRecipe

namespace Act

variable {α β σ : Type}

-- ============================================================================
-- Run equations
-- ============================================================================

theorem run_bind (a : Act α) (f : α → Act β) (m : Machine) :
    (a >>= f).run m = match a.run m with
      | (.ok x, m') => (f x).run m'
      | (.error e, m') => (.error e, m') := by
  simp only [run, ExceptT.run, bind, ExceptT.bind, ExceptT.bindCont, ExceptT.mk, StateT.bind,
    StateT.run]
  rcases a m with ⟨r, m'⟩
  cases r <;> rfl

/-- A bind that succeeds ran its first part to a success, and the rest from there. -/
theorem run_bind_ok {a : Act α} {f : α → Act β} {m m' : Machine} {y : β}
    (h : (a >>= f).run m = (.ok y, m')) :
    ∃ x m₀, a.run m = (.ok x, m₀) ∧ (f x).run m₀ = (.ok y, m') := by
  rw [run_bind] at h
  rcases ha : a.run m with ⟨r, m₀⟩
  rw [ha] at h
  cases r with
  | ok x => exact ⟨x, m₀, rfl, h⟩
  | error e => cases h

/-- A run that succeeds is its value and the machine it leaves. -/
theorem run_eq_of_fst_eq_ok {a : Act α} {m : Machine} {x : α} (h : (a.run m).1 = .ok x) :
    a.run m = (.ok x, (a.run m).2) := by
  rw [← h]

@[simp] theorem run_throw (e : Error) (m : Machine) : (throw e : Act α).run m = (.error e, m) :=
  rfl

@[simp] theorem run_get (m : Machine) : (get : Act Machine).run m = (.ok m, m) := rfl

@[simp] theorem run_modify (f : Machine → Machine) (m : Machine) :
    (modify f : Act PUnit).run m = (.ok (), f m) := rfl

theorem run_tryCatch (a : Act α) (h : Error → Act α) (m : Machine) :
    (tryCatch a h).run m = match a.run m with
      | (.ok x, m') => (.ok x, m')
      | (.error e, m') => (h e).run m' := by
  show (ExceptT.tryCatch a h).run.run m = _
  simp only [run, ExceptT.run, ExceptT.tryCatch, ExceptT.mk, bind, StateT.bind, StateT.run]
  rcases a m with ⟨r, m'⟩
  cases r <;> rfl

@[simp] theorem run_ofOutcome (r : Outcome α) (m : Machine) : (Act.ofOutcome r).run m = (r, m) := by
  cases r <;> rfl

@[simp] theorem run_query (f : FileTree → Location → α) (m : Machine) :
    (query f).run m = (.ok (f m.files m.cwd), m) := rfl

theorem run_change (w : IoFault → Error) (f : FileTree → Location → Except IoFault FileTree)
    (m : Machine) :
    (change w f).run m = match f m.files m.cwd with
      | .ok t => (.ok (), { m with files := t })
      | .error e => (.error (w e), m) := by
  unfold change
  rw [run_bind, run_get]
  dsimp only
  cases f m.files m.cwd <;> rfl

theorem run_attempt (w : IoFault → Error) (f : FileTree → Location → Except IoFault α)
    (m : Machine) :
    (attempt w f).run m = match f m.files m.cwd with
      | .ok x => (.ok x, m)
      | .error e => (.error (w e), m) := by
  unfold attempt
  rw [run_bind, run_get]
  dsimp only
  cases f m.files m.cwd <;> rfl

-- ============================================================================
-- Actions on the file tree alone
-- ============================================================================

/-- An action that works on the file tree alone: what it answers and the tree it leaves
depend only on the tree and the working directory, and the rest of the machine stays. -/
def OnFiles (a : Act α) : Prop :=
  ∃ g : FileTree → Location → Outcome α × FileTree,
    ∀ m, a.run m = ((g m.files m.cwd).1, { m with files := (g m.files m.cwd).2 })

namespace OnFiles

theorem run_journal {a : Act α} (h : OnFiles a) (m : Machine) :
    (a.run m).2.journal = m.journal := by
  obtain ⟨g, hg⟩ := h
  rw [hg]

/-- Two machines with the same tree and working directory give one outcome and one tree. -/
theorem run_congr {a : Act α} (h : OnFiles a) {m m' : Machine} (hf : m.files = m'.files)
    (hc : m.cwd = m'.cwd) :
    (a.run m).1 = (a.run m').1 ∧ (a.run m).2.files = (a.run m').2.files := by
  obtain ⟨g, hg⟩ := h
  rw [hg, hg, hf, hc]
  exact ⟨rfl, rfl⟩

theorem pure (x : α) : OnFiles (pure x : Act α) :=
  ⟨fun t _ => (.ok x, t), fun _ => rfl⟩

theorem throw (e : Error) : OnFiles (throw e : Act α) :=
  ⟨fun t _ => (.error e, t), fun _ => rfl⟩

theorem ofOutcome (r : Outcome α) : OnFiles (Act.ofOutcome r) :=
  ⟨fun t _ => (r, t), fun m => by rw [run_ofOutcome]⟩

theorem query (f : FileTree → Location → α) : OnFiles (Act.query f) :=
  ⟨fun t cwd => (.ok (f t cwd), t), fun _ => rfl⟩

theorem change (w : IoFault → Error) (f : FileTree → Location → Except IoFault FileTree) :
    OnFiles (Act.change w f) := by
  refine ⟨fun t cwd => match f t cwd with
    | .ok t' => (.ok (), t')
    | .error e => (.error (w e), t), fun m => ?_⟩
  rw [run_change]
  rcases hf : f m.files m.cwd with e | t' <;> simp only [hf]

theorem attempt (w : IoFault → Error) (f : FileTree → Location → Except IoFault α) :
    OnFiles (Act.attempt w f) := by
  refine ⟨fun t cwd => match f t cwd with
    | .ok x => (.ok x, t)
    | .error e => (.error (w e), t), fun m => ?_⟩
  rw [run_attempt]
  rcases hf : f m.files m.cwd with e | x <;> simp only [hf]

theorem bind {a : Act α} {f : α → Act β} (ha : OnFiles a) (hf : ∀ x, OnFiles (f x)) :
    OnFiles (a >>= f) := by
  obtain ⟨g, hg⟩ := ha
  choose h hh using hf
  refine ⟨fun t cwd => match g t cwd with
    | (.ok x, t') => h x t' cwd
    | (.error e, t') => (.error e, t'), fun m => ?_⟩
  rw [run_bind, hg]
  dsimp only
  rcases g m.files m.cwd with ⟨r, t'⟩
  cases r with
  | ok x => exact hh x _
  | error e => rfl

theorem ite {p : Prop} [Decidable p] {a b : Act α} (ha : OnFiles a) (hb : OnFiles b) :
    OnFiles (if p then a else b) := by
  by_cases hp : p
  · rwa [if_pos hp]
  · rwa [if_neg hp]

/-- Reading the machine is on files when what follows reads only its tree and working
directory. -/
theorem get_bind {f : Machine → Act β} (hf : ∀ m, OnFiles (f m))
    (hd : ∀ m m', m.files = m'.files → m.cwd = m'.cwd → f m = f m') :
    OnFiles (get >>= f) := by
  choose h hh using hf
  refine ⟨fun t cwd => h ⟨t, cwd, [], [], ""⟩ t cwd, fun m => ?_⟩
  rw [run_bind, run_get]
  dsimp only
  rw [hd m ⟨m.files, m.cwd, [], [], ""⟩ rfl rfl, hh]

theorem forIn (l : List β) (init : σ) {body : β → σ → Act (ForInStep σ)}
    (hb : ∀ x s, OnFiles (body x s)) : OnFiles (forIn l init body) := by
  induction l generalizing init with
  | nil => exact OnFiles.pure init
  | cons x xs ih =>
    rw [List.forIn_cons]
    refine bind (hb x init) fun step => ?_
    cases step with
    | done s => exact OnFiles.pure s
    | yield s => exact ih s

end OnFiles

-- ============================================================================
-- The lifecycle's own steps
-- ============================================================================

/-- A walk that runs an action on files at every entry is itself an action on files; the
induction is on the walk's depth bound. -/
theorem walkSortedFrom_onFiles {visit : WalkEntry → Act (List β)}
    (hv : ∀ e, OnFiles (visit e)) :
    ∀ fuel path below l, OnFiles (walkSortedFrom visit fuel path below l) := by
  intro fuel
  induction fuel with
  | zero => intro path below l; exact OnFiles.pure []
  | succ fuel ih =>
    intro path below l
    unfold walkSortedFrom
    refine OnFiles.get_bind (fun m => ?_) (fun m m' hf _ => by rw [hf])
    refine OnFiles.bind (OnFiles.forIn _ _ fun x s => ?_) fun s => OnFiles.pure s
    obtain ⟨n, isDir⟩ := x
    exact OnFiles.bind (hv _) fun _ =>
      OnFiles.ite (OnFiles.bind (ih _ _ _) fun _ => OnFiles.pure _) (OnFiles.pure _)

theorem walkSorted_onFiles {visit : WalkEntry → Act (List β)} (hv : ∀ e, OnFiles (visit e))
    (p : String) : OnFiles (walkSorted visit p) := by
  unfold walkSorted
  refine OnFiles.get_bind (fun m => ?_) (fun m m' hf hc => by rw [hf, hc])
  split
  · exact walkSortedFrom_onFiles hv _ _ _ _
  · exact OnFiles.pure []

theorem copyMatching_onFiles (pat : Glob.Pattern) (dst : String) (entry : WalkEntry) :
    OnFiles (copyMatching pat dst entry) := by
  unfold copyMatching
  refine OnFiles.ite (OnFiles.pure []) ?_
  split
  · exact OnFiles.pure []
  · refine OnFiles.ite (OnFiles.pure []) ?_
    dsimp only
    -- the copy waits for the target's folder, which is made only when it has a parent
    split
    · exact OnFiles.bind (OnFiles.change _ _) fun _ =>
        OnFiles.bind (OnFiles.change _ _) fun _ => OnFiles.pure _
    · exact OnFiles.bind (OnFiles.change _ _) fun _ => OnFiles.pure _

theorem copyHeaders_onFiles (rule : HeaderRule) (sourceRoot packageFolder : String) :
    OnFiles (copyHeaders rule sourceRoot packageFolder) := by
  unfold copyHeaders
  split
  · exact OnFiles.throw _
  · refine OnFiles.bind (OnFiles.query _) fun _ => ?_
    exact OnFiles.ite (OnFiles.pure []) (walkSorted_onFiles (copyMatching_onFiles _ _) _)

theorem writeToolchainFiles_onFiles (p : Package) (s : Settings) (o : BuildOptions)
    (l : Layout) : OnFiles (writeToolchainFiles p s o l) := by
  unfold writeToolchainFiles writeGenerated
  exact OnFiles.bind (OnFiles.change _ _) fun _ => OnFiles.bind (OnFiles.change _ _) fun _ =>
    OnFiles.bind (OnFiles.change _ _) fun _ => OnFiles.pure _

-- ============================================================================
-- Actions that read only the tree
-- ============================================================================

/-- An action that keeps the working directory and whose outcome and tree are a function of
the tree and the working directory. Unlike an action on files it may change the rest of the
machine, as a tool that records its calls does. -/
def ReadsTree (a : Act α) : Prop :=
  ∀ m m', m.files = m'.files → m.cwd = m'.cwd →
    (a.run m).1 = (a.run m').1 ∧ (a.run m).2.files = (a.run m').2.files ∧
      (a.run m).2.cwd = m.cwd

theorem OnFiles.readsTree {a : Act α} (h : OnFiles a) : ReadsTree a := by
  obtain ⟨g, hg⟩ := h
  intro m m' hf hc
  refine ⟨?_, ?_, ?_⟩
  · rw [hg, hg, hf, hc]
  · rw [hg, hg, hf, hc]
  · rw [hg]

/-- Recording a call changes only the journal. -/
theorem ReadsTree.record (k : Call) : ReadsTree (Act.record k) := by
  intro m m' hf _
  rw [record_journal, record_journal]
  exact ⟨rfl, hf, rfl⟩

theorem ReadsTree.bind {a : Act α} {f : α → Act β} (ha : ReadsTree a)
    (hf : ∀ x, ReadsTree (f x)) : ReadsTree (a >>= f) := by
  intro m m' hfl hc
  obtain ⟨hr, hfiles, hcwd⟩ := ha m m' hfl hc
  have hcwd' : (a.run m').2.cwd = m'.cwd := (ha m' m' rfl rfl).2.2
  rw [run_bind, run_bind]
  rcases hA : a.run m with ⟨r, m₀⟩
  rcases hA' : a.run m' with ⟨r', m₀'⟩
  rw [hA, hA'] at hr hfiles
  rw [hA] at hcwd
  rw [hA'] at hcwd'
  subst hr
  cases r with
  | ok x =>
    -- both runs go on with the same value from machines with one tree and one directory
    obtain ⟨k1, k2, k3⟩ := hf x m₀ m₀' hfiles (hcwd.trans (hc.trans hcwd'.symm))
    exact ⟨k1, k2, k3.trans hcwd⟩
  | error e => exact ⟨rfl, hfiles, hcwd⟩

-- ============================================================================
-- Properties an action keeps
-- ============================================================================

/-- Every run of the action from a machine with the property ends in a machine with it,
whether the run succeeds or fails. -/
def Keeps (I : Machine → Prop) (a : Act α) : Prop := ∀ m, I m → I (a.run m).2

namespace Keeps

variable {I : Machine → Prop}

theorem pure (x : α) : Keeps I (Pure.pure x : Act α) := fun _ h => h

theorem throw (e : Error) : Keeps I (MonadExcept.throw e : Act α) := fun _ h => h

theorem query (f : FileTree → Location → α) : Keeps I (Act.query f) := fun _ h => h

theorem ofOutcome (r : Outcome α) : Keeps I (Act.ofOutcome r) := fun m h => by
  rw [run_ofOutcome]
  exact h

/-- A bind whose first part ends with the property, and whose rest keeps it, ends with it. -/
theorem of_run_bind {a : Act α} {f : α → Act β} {m : Machine} (ha : I (a.run m).2)
    (hf : ∀ x, Keeps I (f x)) : I ((a >>= f).run m).2 := by
  rw [run_bind]
  rcases hr : a.run m with ⟨r, m'⟩
  rw [hr] at ha
  cases r with
  | ok x => exact hf x m' ha
  | error e => exact ha

theorem bind {a : Act α} {f : α → Act β} (ha : Keeps I a) (hf : ∀ x, Keeps I (f x)) :
    Keeps I (a >>= f) :=
  fun m h => of_run_bind (ha m h) hf

theorem ite {p : Prop} [Decidable p] {a b : Act α} (ha : Keeps I a) (hb : Keeps I b) :
    Keeps I (if p then a else b) := by
  by_cases hp : p
  · rwa [if_pos hp]
  · rwa [if_neg hp]

theorem tryCatch {a : Act α} {h : Error → Act α} (ha : Keeps I a) (hh : ∀ e, Keeps I (h e)) :
    Keeps I (MonadExcept.tryCatch a h) := by
  intro m hm
  have ha' := ha m hm
  rw [run_tryCatch]
  rcases hr : a.run m with ⟨r, m'⟩
  rw [hr] at ha'
  cases r with
  | ok x => exact ha'
  | error e => exact hh e m' ha'

/-- A change of the tree keeps a property of trees that every successful change keeps. -/
theorem change {P : FileTree → Prop} (w : IoFault → Error)
    {f : FileTree → Location → Except IoFault FileTree}
    (hf : ∀ t cwd t', f t cwd = .ok t' → P t → P t') :
    Keeps (fun m => P m.files) (Act.change w f) := by
  intro m hm
  rw [run_change]
  rcases hr : f m.files m.cwd with e | t'
  · exact hm
  · exact hf _ _ _ hr hm

end Keeps

end Act

end BuildRecipe
