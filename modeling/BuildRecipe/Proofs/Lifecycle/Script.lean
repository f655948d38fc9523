import BuildRecipe.Proofs.Lifecycle.Phases
/-!
# Runs against scripted capabilities

A lifecycle run drives three capabilities: the build tool (configure, build, install), the
fetcher and the command shell that runs hooks. Their outcomes are not the lifecycle's to
decide, so this module lets a *script* answer them: for every call, an arbitrary outcome
and an arbitrary effect on the machine. The runner answered by a script (`Script.runner`)
records each call in the journal, so the journal of a run lists the calls it made, in order.

A run *follows* a plan, a list of calls (`Follows`), when

* the calls it made are a prefix of the plan,
* every call but the last succeeded,
* a successful run made every planned call, and
* when the last call failed, the run failed with that call's error as `Reports` says:
  a source hook's command failure as a fetch failure, any generate hook failure as a
  generation failure, and every other error unchanged.

Main statements: following is closed under `pure`, `throw`, bind and branches
(`Follows.bind`, `Follows.ite`); a step on files alone follows the empty plan
(`follows_onFiles`); a call follows the plan of itself, also when a handler turns its
failures into errors reported for it (`follows_answer`, `follows_tryCatch_answer`).
-/

namespace BuildRecipe

/-- Answers of the capabilities a run drives: the outcome of each call, and what the call
does to the machine (its journal aside). -/
structure Script where
  outcome : Call → Outcome StepOutput
  effect : Call → Machine → Machine

/-- The call that runs the hook of a stage: the command shell's step name. -/
def hookCall (s : Stage) : Call := .tool (s.name ++ " hook")

/-- How a run reports a failed call: a source hook's command failure as a fetch failure, any
failure of a generate hook as a generation failure, and every other error as it is. -/
def Reports (k : Call) (e r : Error) : Prop :=
  if k = hookCall .source then
    match e with
    | .command .. => ∃ d, r = .fetch d
    | _ => r = e
  else if k = hookCall .generate then ∃ d, r = .toolchain d
  else r = e

namespace Script

variable {α β : Type}

/-- A call answered by the script: recorded in the journal, its effect applied and its
outcome returned. -/
def answer (sc : Script) (k : Call) : Act StepOutput := do
  modify fun m => { sc.effect k m with journal := m.journal ++ [k] }
  Act.ofOutcome (sc.outcome k)

/-- The lifecycle runner whose build tool, fetcher and command shell the script answers. -/
def runner (sc : Script) (cfg : RunConfig) : Orchestrator where
  config := cfg
  tool := ⟨fun _ => sc.answer (.tool "configure"), fun _ => sc.answer (.tool "build"),
    fun _ => sc.answer (.tool "install")⟩
  fetcher := ⟨fun r => sc.answer (.fetch r)⟩
  shell := ⟨fun step _ _ _ => sc.answer (.tool step)⟩

/-- One run from `m`, ending in `res`, that made the calls `calls`, conforms to a plan. -/
structure Conforms (sc : Script) (plan : List Call) (post : α → Prop) (m : Machine)
    (res : Outcome α × Machine) (calls : List Call) : Prop where
  journal : res.2.journal = m.journal ++ calls
  isPrefix : calls <+: plan
  earlier : ∀ k ∈ calls.dropLast, ∃ out, sc.outcome k = .ok out
  success : ∀ x, res.1 = .ok x → calls = plan ∧ post x
  failure : ∀ k e, calls.getLast? = some k → sc.outcome k = .error e →
    ∃ r, res.1 = .error r ∧ Reports k e r

/-- Every run of an action conforms to the plan. -/
def Follows (sc : Script) (a : Act α) (plan : List Call) (post : α → Prop) : Prop :=
  ∀ m, ∃ calls, Conforms sc plan post m (a.run m) calls

variable {sc : Script}

-- ============================================================================
-- Conforming runs
-- ============================================================================

/-- In a successful run every call succeeded: a failed last call would have failed it. -/
theorem Conforms.calls_ok {plan : List Call} {post : α → Prop} {m : Machine}
    {res : Outcome α × Machine} {calls : List Call} (h : Conforms sc plan post m res calls)
    {x : α} (hx : res.1 = .ok x) : ∀ k ∈ calls, ∃ out, sc.outcome k = .ok out := by
  intro k hk
  have hne : calls ≠ [] := List.ne_nil_of_mem hk
  rw [← List.dropLast_concat_getLast hne, List.mem_append, List.mem_singleton] at hk
  rcases hk with hk | rfl
  · exact h.earlier k hk
  · cases hout : sc.outcome (calls.getLast hne) with
    | ok out => exact ⟨out, rfl⟩
    | error e =>
      obtain ⟨r, hr, -⟩ := h.failure _ e (List.getLast?_eq_some_getLast hne) hout
      rw [hx] at hr
      cases hr

/-- A run that failed conforms to any longer plan. -/
theorem Conforms.failed {p₁ p₂ : List Call} {Q : α → Prop} {R : β → Prop} {m m₁ : Machine}
    {e : Error} {calls : List Call} (h : Conforms sc p₁ Q m (.error e, m₁) calls) :
    Conforms sc (p₁ ++ p₂) R m (.error e, m₁) calls where
  journal := h.journal
  isPrefix := h.isPrefix.trans (List.prefix_append p₁ p₂)
  earlier := h.earlier
  success := fun _ hx => by cases hx
  failure := fun k e' hk he => by
    obtain ⟨r, hr, hrep⟩ := h.failure k e' hk he
    cases hr
    exact ⟨e, rfl, hrep⟩

/-- A successful run followed by a conforming run conforms to the two plans in sequence. -/
theorem Conforms.append {p₁ p₂ : List Call} {Q : α → Prop} {R : β → Prop} {m m₁ : Machine}
    {x : α} {res : Outcome β × Machine} {calls : List Call}
    (h₁ : Conforms sc p₁ Q m (.ok x, m₁) p₁) (h₂ : Conforms sc p₂ R m₁ res calls) :
    Conforms sc (p₁ ++ p₂) R m res (p₁ ++ calls) where
  journal := by rw [h₂.journal, h₁.journal, List.append_assoc]
  isPrefix := (List.prefix_append_right_inj p₁).mpr h₂.isPrefix
  earlier := by
    have hok := h₁.calls_ok rfl
    intro k hk
    rw [List.dropLast_append] at hk
    split at hk
    · exact hok k (List.dropLast_subset _ hk)
    · rcases List.mem_append.mp hk with hk | hk
      · exact hok k hk
      · exact h₂.earlier k hk
  success := fun y hy => by
    obtain ⟨hc, hR⟩ := h₂.success y hy
    exact ⟨by rw [hc], hR⟩
  failure := by
    intro k e hk he
    rw [List.getLast?_append] at hk
    cases hl : calls.getLast? with
    | some k' =>
      rw [hl, Option.some_or] at hk
      cases hk
      exact h₂.failure k e hl he
    | none =>
      -- the last call was the last planned call of the first part, which succeeded
      rw [hl, Option.none_or] at hk
      obtain ⟨out, hout⟩ := h₁.calls_ok rfl k (List.mem_of_getLast? hk)
      rw [hout] at he
      cases he

-- ============================================================================
-- Following a plan
-- ============================================================================

theorem follows_pure {x : α} {post : α → Prop} (hx : post x) : Follows sc (pure x) [] post := by
  intro m
  refine ⟨[], ?_, List.prefix_refl _, by simp, fun y hy => ?_, by simp⟩
  · rw [Act.run_pure, List.append_nil]
  · rw [Act.run_pure] at hy
    cases hy
    exact ⟨rfl, hx⟩

theorem follows_throw (e : Error) (plan : List Call) (post : α → Prop) :
    Follows sc (throw e) plan post := by
  intro m
  refine ⟨[], ?_, List.nil_prefix, by simp, fun y hy => ?_, by simp⟩
  · rw [Act.run_throw, List.append_nil]
  · rw [Act.run_throw] at hy
    cases hy

/-- A step that works on files alone makes no call. -/
theorem follows_onFiles {a : Act α} (ha : Act.OnFiles a) : Follows sc a [] fun _ => True := by
  intro m
  refine ⟨[], ?_, List.prefix_refl _, by simp, fun _ _ => ⟨rfl, trivial⟩, by simp⟩
  rw [ha.run_journal, List.append_nil]

theorem Follows.bind {a : Act α} {f : α → Act β} {p₁ p₂ : List Call} {Q : α → Prop}
    {R : β → Prop} (ha : Follows sc a p₁ Q) (hf : ∀ x, Q x → Follows sc (f x) p₂ R) :
    Follows sc (a >>= f) (p₁ ++ p₂) R := by
  intro m
  obtain ⟨calls, h₁⟩ := ha m
  rw [Act.run_bind]
  rcases hr : a.run m with ⟨r, m₁⟩
  rw [hr] at h₁
  cases r with
  | error e => exact ⟨calls, h₁.failed⟩
  | ok x =>
    obtain ⟨rfl, hQ⟩ := h₁.success x rfl
    obtain ⟨calls₂, h₂⟩ := hf x hQ m₁
    exact ⟨_, h₁.append h₂⟩

theorem Follows.ite {p : Prop} [Decidable p] {a b : Act α} {plan : List Call} {post : α → Prop}
    (ha : Follows sc a plan post) (hb : Follows sc b plan post) :
    Follows sc (if p then a else b) plan post := by
  by_cases hp : p
  · rwa [if_pos hp]
  · rwa [if_neg hp]

theorem Follows.bind' {a : Act α} {f : α → Act β} {p₁ p₂ p : List Call} {Q : α → Prop}
    {R : β → Prop} (ha : Follows sc a p₁ Q) (hf : ∀ x, Q x → Follows sc (f x) p₂ R)
    (hp : p₁ ++ p₂ = p) : Follows sc (a >>= f) p R := hp ▸ ha.bind hf

theorem follows_throw_bind (e : Error) (f : α → Act β) (plan : List Call) (post : β → Prop) :
    Follows sc (throw e >>= f) plan post :=
  (follows_throw e plan fun _ => False).bind' (fun _ h => h.elim) (List.append_nil _)

-- ============================================================================
-- Calls answered by the script
-- ============================================================================

theorem run_answer (k : Call) (m : Machine) :
    (sc.answer k).run m = (sc.outcome k, { sc.effect k m with journal := m.journal ++ [k] }) := by
  rw [answer, Act.run_bind, Act.run_modify]
  exact Act.run_ofOutcome _ _

/-- A run that made one call and, when the call failed, failed with an error reported for it,
conforms to the plan of that call. -/
theorem conforms_call (k : Call) {m m' : Machine} {res : Outcome StepOutput}
    (hj : m'.journal = m.journal ++ [k])
    (herr : ∀ e, sc.outcome k = .error e → ∃ r, res = .error r ∧ Reports k e r) :
    Conforms sc [k] (fun _ => True) m (res, m') [k] where
  journal := hj
  isPrefix := List.prefix_refl _
  earlier := by simp
  success := fun _ _ => ⟨rfl, trivial⟩
  failure := by
    intro k' e hk he
    rw [List.getLast?_singleton, Option.some.injEq] at hk
    subst hk
    exact herr e he

/-- A call whose failure the run reports unchanged follows the plan of that one call. -/
theorem follows_answer (k : Call) (hk : ∀ e, Reports k e e) :
    Follows sc (sc.answer k) [k] fun _ => True := by
  intro m
  refine ⟨[k], ?_⟩
  rw [run_answer]
  exact conforms_call k rfl fun e h => ⟨e, h, hk e⟩

/-- A call whose failures a handler turns into errors reported for the call follows the plan
of that one call. -/
theorem follows_tryCatch_answer (k : Call) {h : Error → Act StepOutput}
    (hh : ∀ e m, ∃ r, (h e).run m = (.error r, m) ∧ Reports k e r) :
    Follows sc (tryCatch (sc.answer k) h) [k] fun _ => True := by
  intro m
  refine ⟨[k], ?_⟩
  rw [Act.run_tryCatch, run_answer]
  cases hk : sc.outcome k with
  | ok out => exact conforms_call k rfl fun e h => by rw [hk] at h; cases h
  | error e =>
    obtain ⟨r, hr, hrep⟩ := hh e { sc.effect k m with journal := m.journal ++ [k] }
    dsimp only
    rw [hr]
    refine conforms_call k rfl fun e' h => ?_
    rw [hk, Except.error.injEq] at h
    subst h
    exact ⟨r, rfl, hrep⟩

/-- A call keeps a property of trees that its effect keeps. -/
theorem keeps_answer (P : FileTree → Prop) (k : Call)
    (hk : ∀ m, P m.files → P (sc.effect k m).files) :
    Act.Keeps (fun m => P m.files) (sc.answer k) := by
  intro m hm
  rw [run_answer]
  exact hk m hm

@[simp] theorem runner_config (cfg : RunConfig) : (sc.runner cfg).config = cfg := rfl

@[simp] theorem runner_runHook (cfg : RunConfig) (c : RunContext) (s : Stage) (command : String) :
    (sc.runner cfg).runHook c s command = sc.answer (hookCall s) := rfl

@[simp] theorem runner_fetch (cfg : RunConfig) (r : FetchRequest) :
    (sc.runner cfg).fetcher.fetch r = sc.answer (.fetch r) := rfl

@[simp] theorem runner_configure (cfg : RunConfig) (l : Layout) :
    (sc.runner cfg).tool.configure l = sc.answer (.tool "configure") := rfl

@[simp] theorem runner_build (cfg : RunConfig) (l : Layout) :
    (sc.runner cfg).tool.build l = sc.answer (.tool "build") := rfl

@[simp] theorem runner_install (cfg : RunConfig) (l : Layout) :
    (sc.runner cfg).tool.install l = sc.answer (.tool "install") := rfl

end Script

end BuildRecipe
