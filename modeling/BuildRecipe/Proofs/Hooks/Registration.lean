import BuildRecipe.Recipe.Stage
/-!
# Registering hook commands one after another

Registrations are made one after another on one table, and a failed registration leaves the
table as it was (`HookTable.replay`). The outcome of registering an entry after a sequence of
earlier entries is `HookTable.registration`.

A hook table holds at most one command per stage, in lifecycle order, so it is fixed by the
command it gives each stage (`HookTable.tabulate`). The table a sequence of registrations
leaves gives each stage the command of the first entry for it that registers: one that names
a stage taking commands and whose command is not blank (`HookEntry.isValid`,
`HookTable.firstCommand`).

Main statements: registering an entry fails with a parse error exactly when its stage takes
no command or its command is blank, fails as a duplicate exactly when an earlier entry for its
stage registered, and succeeds otherwise; the table maps each stage to the command of the
entry for it that registered and to nothing else, and lists at most the four hookable stages,
in lifecycle order; reading a recipe's hooks gives that table when every registration succeeds
and the first failure otherwise (`registration_sequence`).
-/

namespace BuildRecipe

namespace HookEntry

/-- The entry names a stage that takes commands and gives a command that is not blank. -/
def isValid (e : HookEntry) : Bool := e.stage.acceptsCommand && !(Text.trim e.run).isEmpty

end HookEntry

namespace HookTable

/-- The entries of a table giving the stages of `L` the commands `f` gives them, in the order
of `L`. -/
def rows (L : List Stage) (f : Stage → Option String) : List (Stage × String) :=
  L.filterMap fun s => (f s).map (s, ·)

/-- The table giving each stage the command `f` gives it, in lifecycle order. -/
def tabulate (f : Stage → Option String) : HookTable := ⟨rows Stage.all f⟩

/-- The command of the first valid entry for a stage. -/
def firstCommand (es : List HookEntry) (s : Stage) : Option String :=
  (es.find? fun e => e.stage == s && e.isValid).map (·.run)

/-- Register an entry; a failed registration leaves the table as it was. -/
def registerOrKeep (t : HookTable) (e : HookEntry) : HookTable :=
  match t.register e.stage e.run with
  | .ok t' => t'
  | .error _ => t

/-- The table after registering entries in order on an empty table, each failed registration
leaving the table as it was. -/
def replay (es : List HookEntry) : HookTable := es.foldl registerOrKeep empty

/-- The outcome of registering an entry after the entries `pre`. -/
def registration (pre : List HookEntry) (e : HookEntry) : Outcome HookTable :=
  (replay pre).register e.stage e.run

/-- Some entry of `es` for stage `s` with command `cmd` registered after the entries before it. -/
def Registered (es : List HookEntry) (s : Stage) (cmd : String) : Prop :=
  ∃ pre e post, es = pre ++ e :: post ∧ e.stage = s ∧ e.run = cmd ∧
    (registration pre e).isOk = true

-- ============================================================================
-- Tables given stage by stage
-- ============================================================================

theorem rows_cons (x : Stage) (L : List Stage) (f : Stage → Option String) :
    rows (x :: L) f = ((f x).map (x, ·)).toList ++ rows L f := by
  unfold rows
  rw [List.filterMap_cons]
  cases f x <;> rfl

theorem rows_congr {L : List Stage} {f g : Stage → Option String} (h : ∀ x ∈ L, f x = g x) :
    rows L f = rows L g := by
  induction L with
  | nil => rfl
  | cons x L ih =>
    rw [rows_cons, rows_cons, h x List.mem_cons_self,
      ih fun y hy => h y (List.mem_cons_of_mem x hy)]

theorem find?_rows {L : List Stage} (hL : L.Nodup) (f : Stage → Option String) (s : Stage) :
    ((rows L f).find? (·.1 == s)).map (·.2) = if s ∈ L then f s else none := by
  induction L with
  | nil => simp [rows]
  | cons x L ih =>
    obtain ⟨hx, hL⟩ := List.nodup_cons.mp hL
    rw [rows_cons, List.find?_append]
    by_cases hxs : x = s
    · subst hxs
      cases hfx : f x with
      | none => simp [ih hL, hx]
      | some c => simp
    · have hne : (x == s) = false := by simp [hxs]
      cases f x <;> simp [hne, ih hL, Ne.symm hxs]

theorem get?_tabulate (f : Stage → Option String) (s : Stage) : (tabulate f).get? s = f s := by
  have hall : s ∈ Stage.all := by cases s <;> decide
  rw [get?, tabulate, find?_rows (by decide) f s, if_pos hall]

theorem map_fst_rows (L : List Stage) (f : Stage → Option String) :
    (rows L f).map (·.1) = L.filter fun s => (f s).isSome := by
  induction L with
  | nil => rfl
  | cons x L ih =>
    rw [rows_cons, List.map_append, ih, List.filter_cons]
    cases f x <;> simp

theorem stages_tabulate (f : Stage → Option String) :
    (tabulate f).stages = Stage.all.filter fun s => (f s).isSome :=
  map_fst_rows _ _

/-- A stage ranked before every entry of a table goes first. -/
theorem insertOrdered_of_lt {s : Stage} {l : List (Stage × String)}
    (h : ∀ p ∈ l, s.rank < p.1.rank) (cmd : String) : insertOrdered s cmd l = (s, cmd) :: l := by
  cases l with
  | nil => rfl
  | cons p l =>
    obtain ⟨s', c'⟩ := p
    simp [insertOrdered, h (s', c') List.mem_cons_self]

/-- Putting a command for a stage without one at its place in lifecycle order gives that stage
the command; the induction is on the stages, ranked in increasing order. -/
theorem insertOrdered_rows {L : List Stage} (hL : L.Pairwise (·.rank < ·.rank))
    {f : Stage → Option String} {s : Stage} (hs : s ∈ L) (hf : f s = none) (cmd : String) :
    insertOrdered s cmd (rows L f) = rows L fun x => if x = s then some cmd else f x := by
  induction L with
  | nil => simp at hs
  | cons x L ih =>
    obtain ⟨hlt, hL⟩ := List.pairwise_cons.mp hL
    by_cases hxs : x = s
    · subst hxs
      -- the later stages rank higher, so the command goes first and they keep theirs
      have hfirst : ∀ p ∈ rows L f, x.rank < p.1.rank := by
        intro p hp
        obtain ⟨y, hy, hpy⟩ := List.mem_filterMap.mp hp
        obtain ⟨c, -, rfl⟩ := Option.map_eq_some_iff.mp hpy
        exact hlt y hy
      have hrest : (rows L fun y => if y = x then some cmd else f y) = rows L f := by
        refine rows_congr fun y hy => ?_
        have hyx : y ≠ x := fun h => Nat.lt_irrefl _ (h ▸ hlt y hy)
        simp [hyx]
      rw [rows_cons, rows_cons, hf, hrest]
      simpa using insertOrdered_of_lt hfirst cmd
    · have hsL : s ∈ L := (List.mem_cons.mp hs).resolve_left (Ne.symm hxs)
      have hrank : ¬ s.rank < x.rank := Nat.lt_asymm (hlt s hsL)
      rw [rows_cons, rows_cons, if_neg hxs]
      cases hfx : f x with
      | none => simpa using ih hL hsL
      | some c => simp [insertOrdered, hrank, ih hL hsL]

theorem stages_pairwise_rank : Stage.all.Pairwise (·.rank < ·.rank) := by decide

theorem mem_all (s : Stage) : s ∈ Stage.all := by cases s <;> decide

/-- Registering on a table given stage by stage: a stage that takes no command or a blank
command is refused, a stage that has a command is a duplicate, and otherwise the stage gets
the command. -/
theorem register_tabulate (f : Stage → Option String) (s : Stage) (cmd : String) :
    (tabulate f).register s cmd =
      if !s.acceptsCommand then
        .error (.parse ("Stage '" ++ s.name ++ "' cannot be overridden by a command"))
      else if (Text.trim cmd).isEmpty then
        .error (.parse ("Hook for stage '" ++ s.name ++ "' has an empty command"))
      else if (f s).isSome then .error (.duplicateHook s.name)
      else .ok (tabulate fun x => if x = s then some cmd else f x) := by
  rw [register, get?_tabulate]
  cases hfs : f s with
  | some c => rfl
  | none =>
    simp only [Option.isSome_none, Bool.false_eq_true, if_false]
    rw [tabulate, tabulate, insertOrdered_rows stages_pairwise_rank (mem_all s) hfs]

-- ============================================================================
-- The first valid entry for each stage
-- ============================================================================

@[simp] theorem firstCommand_nil (s : Stage) : firstCommand [] s = none := rfl

theorem firstCommand_append_single (es : List HookEntry) (e : HookEntry) (s : Stage) :
    firstCommand (es ++ [e]) s =
      (firstCommand es s).or (if e.stage = s ∧ e.isValid = true then some e.run else none) := by
  unfold firstCommand
  rw [List.find?_append]
  cases es.find? (fun e => e.stage == s && e.isValid) with
  | some x => rfl
  | none => by_cases h : e.stage = s ∧ e.isValid = true <;> simp_all

theorem firstCommand_valid (es : List HookEntry) (s : Stage) :
    firstCommand es s ≠ none → s.acceptsCommand = true := by
  intro h
  obtain ⟨cmd, hc⟩ := Option.ne_none_iff_exists'.mp h
  obtain ⟨e, he, -⟩ := Option.map_eq_some_iff.mp hc
  have hp := List.find?_some he
  simp only [Bool.and_eq_true, beq_iff_eq, HookEntry.isValid] at hp
  exact hp.1 ▸ hp.2.1

/-- An entry that is valid and the first for its stage gives its stage its command. -/
theorem firstCommand_append_registered {es : List HookEntry} {e : HookEntry}
    (hv : e.isValid = true) (hf : firstCommand es e.stage = none) :
    firstCommand (es ++ [e]) = fun s => if s = e.stage then some e.run else firstCommand es s := by
  funext s
  rw [firstCommand_append_single]
  by_cases hs : s = e.stage
  · subst hs; simp [hf, hv]
  · simp [hs, Ne.symm hs]

theorem isValid_iff (e : HookEntry) :
    e.isValid = true ↔ e.stage.acceptsCommand = true ∧ (Text.trim e.run).isEmpty = false := by
  simp [HookEntry.isValid]

/-- One registration step on the table of the first valid entries: the entry becomes the first
valid one for its stage exactly when it registers. -/
theorem registerOrKeep_tabulate (es : List HookEntry) (e : HookEntry) :
    (tabulate (firstCommand es)).registerOrKeep e = tabulate (firstCommand (es ++ [e])) := by
  unfold registerOrKeep
  rw [register_tabulate]
  by_cases hv : e.isValid = true
  · obtain ⟨ha, hb⟩ := (isValid_iff e).mp hv
    simp only [ha, hb, Bool.not_true, Bool.false_eq_true, if_false]
    cases hf : firstCommand es e.stage with
    | some c =>
      -- a duplicate leaves the earlier command in place
      simp only [Option.isSome_some, if_true]
      refine congrArg tabulate (funext fun s => ?_)
      rw [firstCommand_append_single]
      by_cases hs : e.stage = s
      · subst hs; simp [hf]
      · simp [hs]
    | none =>
      simp only [Option.isSome_none, Bool.false_eq_true, if_false]
      rw [firstCommand_append_registered hv hf]
  · -- an invalid entry is refused and changes no stage's first valid entry
    have hkeep : firstCommand (es ++ [e]) = firstCommand es := by
      funext s
      rw [firstCommand_append_single]
      simp [hv]
    rw [hkeep]
    rw [isValid_iff, not_and, Bool.not_eq_false] at hv
    by_cases ha : e.stage.acceptsCommand = true
    · simp [ha, hv ha]
    · simp [ha]

/-- Registering entries one after another from the table of the first valid entries of `pre`
leaves the table of the first valid entries of all of them; the induction is on the entries. -/
theorem foldl_registerOrKeep (pre es : List HookEntry) :
    es.foldl registerOrKeep (tabulate (firstCommand pre)) = tabulate (firstCommand (pre ++ es)) := by
  induction es generalizing pre with
  | nil => simp
  | cons e es ih =>
    rw [List.foldl_cons, registerOrKeep_tabulate, ih, List.append_assoc, List.singleton_append]

theorem replay_append_single (es : List HookEntry) (e : HookEntry) :
    replay (es ++ [e]) = (replay es).registerOrKeep e := by
  simp [replay, List.foldl_append]

/-- The table a sequence of registrations leaves gives each stage its first valid entry's
command. -/
theorem replay_eq_tabulate (es : List HookEntry) : replay es = tabulate (firstCommand es) :=
  foldl_registerOrKeep [] es

theorem get?_replay (es : List HookEntry) (s : Stage) : (replay es).get? s = firstCommand es s := by
  rw [replay_eq_tabulate, get?_tabulate]

-- ============================================================================
-- Registrations that succeed
-- ============================================================================

theorem registration_eq (pre : List HookEntry) (e : HookEntry) :
    registration pre e =
      if !e.stage.acceptsCommand then
        .error (.parse ("Stage '" ++ e.stage.name ++ "' cannot be overridden by a command"))
      else if (Text.trim e.run).isEmpty then
        .error (.parse ("Hook for stage '" ++ e.stage.name ++ "' has an empty command"))
      else if (firstCommand pre e.stage).isSome then .error (.duplicateHook e.stage.name)
      else .ok (replay (pre ++ [e])) := by
  rw [registration, replay_eq_tabulate, register_tabulate, replay_eq_tabulate]
  cases hf : firstCommand pre e.stage with
  | some c => rfl
  | none =>
    -- a valid entry's table is the one with its command added
    by_cases ha : e.stage.acceptsCommand = true
    · by_cases hb : (Text.trim e.run).isEmpty = true
      · simp [ha, hb]
      · have hv : e.isValid = true := (isValid_iff e).mpr ⟨ha, by simpa using hb⟩
        simp [ha, hb, firstCommand_append_registered hv hf]
    · simp [ha]

theorem registration_isOk_iff (pre : List HookEntry) (e : HookEntry) :
    (registration pre e).isOk = true ↔ e.isValid = true ∧ firstCommand pre e.stage = none := by
  rw [registration_eq]
  cases ha : e.stage.acceptsCommand <;> cases hb : (Text.trim e.run).isEmpty <;>
    cases hf : firstCommand pre e.stage <;>
    simp [HookEntry.isValid, ha, hb, Except.isOk, Except.toBool]

/-- A stage's first valid entry is exactly the entry for it that registered. -/
theorem firstCommand_eq_some_iff (es : List HookEntry) (s : Stage) (cmd : String) :
    firstCommand es s = some cmd ↔ Registered es s cmd := by
  constructor
  · intro h
    obtain ⟨e, he, rfl⟩ := Option.map_eq_some_iff.mp h
    obtain ⟨hp, pre, post, rfl, hpre⟩ := List.find?_eq_some_iff_append.mp he
    simp only [Bool.and_eq_true, beq_iff_eq] at hp
    -- no entry before it is a valid one for its stage
    have hnone : firstCommand pre e.stage = none := by
      rw [firstCommand, Option.map_eq_none_iff, List.find?_eq_none]
      intro x hx hx'
      have h := hpre x hx
      rw [hp.1] at hx'
      simp [hx'] at h
    exact ⟨pre, e, post, rfl, hp.1, rfl, (registration_isOk_iff pre e).mpr ⟨hp.2, hnone⟩⟩
  · rintro ⟨pre, e, post, rfl, rfl, rfl, hok⟩
    obtain ⟨hv, hnone⟩ := (registration_isOk_iff pre e).mp hok
    rw [firstCommand, Option.map_eq_none_iff] at hnone
    rw [firstCommand, List.find?_append, hnone]
    simp [hv]

theorem get?_replay_eq_some_iff (es : List HookEntry) (s : Stage) (cmd : String) :
    (replay es).get? s = some cmd ↔ Registered es s cmd := by
  rw [get?_replay, firstCommand_eq_some_iff]

theorem firstCommand_isSome_iff (es : List HookEntry) (s : Stage) :
    (firstCommand es s).isSome = true ↔ ∃ cmd, Registered es s cmd := by
  rw [Option.isSome_iff_exists]
  exact exists_congr fun cmd => firstCommand_eq_some_iff es s cmd

theorem acceptsCommand_eq_false_iff (s : Stage) :
    s.acceptsCommand = false ↔ s = .layout ∨ s = .packageInfo := by
  cases s <;> decide

/-- The stages of a table left by registrations: at most the four hookable ones, in lifecycle
order, and exactly those with a command. -/
theorem stages_replay (es : List HookEntry) :
    (replay es).stages.Sublist [.source, .generate, .build, .package] ∧
      ∀ s, s ∈ (replay es).stages ↔ ((replay es).get? s).isSome := by
  rw [replay_eq_tabulate, stages_tabulate]
  refine ⟨?_, fun s => by simp [get?_tabulate, mem_all]⟩
  -- the stages taking no command have no first valid entry
  have hl : (firstCommand es .layout).isSome = false := by
    rw [Option.isSome_eq_false_iff, Option.isNone_iff_eq_none]
    exact Decidable.byContradiction fun h => absurd (firstCommand_valid es _ h) (by decide)
  have hp : (firstCommand es .packageInfo).isSome = false := by
    rw [Option.isSome_eq_false_iff, Option.isNone_iff_eq_none]
    exact Decidable.byContradiction fun h => absurd (firstCommand_valid es _ h) (by decide)
  have hall : Stage.all = .layout :: ([.source, .generate, .build, .package] ++ [.packageInfo]) :=
    rfl
  have hlast : [Stage.packageInfo].filter (fun s => (firstCommand es s).isSome) = [] := by
    simp [hp]
  rw [hall, List.filter_cons_of_neg (by simp [hl]), List.filter_append, hlast, List.append_nil]
  exact List.filter_sublist

-- ============================================================================
-- Reading a recipe's hooks
-- ============================================================================

/-- A property of every split of a list at one element holds at the first element and at every
split of the rest. -/
theorem forall_splits_cons {P : List HookEntry → HookEntry → Prop} (e : HookEntry)
    (es : List HookEntry) :
    (∀ q₁ x q₂, e :: es = q₁ ++ x :: q₂ → P q₁ x) ↔
      P [] e ∧ ∀ q₁ x q₂, es = q₁ ++ x :: q₂ → P (e :: q₁) x := by
  constructor
  · intro h
    exact ⟨h [] e es rfl, fun q₁ x q₂ hs => h (e :: q₁) x q₂ (by rw [hs]; rfl)⟩
  · rintro ⟨h0, h⟩ q₁ x q₂ hs
    cases q₁ with
    | nil => obtain ⟨rfl, -⟩ := List.cons.inj hs; exact h0
    | cons y q₁ =>
      rw [List.cons_append, List.cons.injEq] at hs
      obtain ⟨rfl, hs⟩ := hs
      exact h q₁ x q₂ hs

theorem exists_splits_cons {P : List HookEntry → HookEntry → Prop} (e : HookEntry)
    (es : List HookEntry) :
    (∃ q₁ x q₂, e :: es = q₁ ++ x :: q₂ ∧ P q₁ x) ↔
      P [] e ∨ ∃ q₁ x q₂, es = q₁ ++ x :: q₂ ∧ P (e :: q₁) x := by
  constructor
  · rintro ⟨q₁, x, q₂, hs, hp⟩
    cases q₁ with
    | nil => obtain ⟨rfl, -⟩ := List.cons.inj hs; exact .inl hp
    | cons y q₁ =>
      rw [List.cons_append, List.cons.injEq] at hs
      obtain ⟨rfl, hs⟩ := hs
      exact .inr ⟨q₁, x, q₂, hs, hp⟩
  · rintro (hp | ⟨q₁, x, q₂, hs, hp⟩)
    · exact ⟨[], e, es, rfl, hp⟩
    · exact ⟨e :: q₁, x, q₂, by rw [hs]; rfl, hp⟩

theorem eq_replay_of_registration {pre : List HookEntry} {e : HookEntry} {t : HookTable}
    (h : registration pre e = .ok t) : t = replay (pre ++ [e]) := by
  rw [registration_eq] at h
  split at h
  · cases h
  · split at h
    · cases h
    · split at h
      · cases h
      · exact (Except.ok.inj h).symm

theorem isOk_ok {α : Type} (a : α) : (Except.ok a : Outcome α).isOk = true := rfl

theorem isOk_error {α : Type} (e : Error) : (Except.error e : Outcome α).isOk = false := rfl

theorem not_nil_eq_split (q₁ : List HookEntry) (x : HookEntry) (q₂ : List HookEntry) :
    ([] : List HookEntry) ≠ q₁ ++ x :: q₂ := by
  simp

/-- Registering entries one after another, stopping at the first failure, from the table the
entries `pre` left: it succeeds exactly when every registration succeeds, with the table all
entries leave; the induction is on the entries still to register. -/
theorem foldlM_register_eq_ok_iff (pre es : List HookEntry) (t : HookTable) :
    es.foldlM (fun t e => t.register e.stage e.run) (replay pre) = .ok t ↔
      (∀ q₁ x q₂, es = q₁ ++ x :: q₂ → (registration (pre ++ q₁) x).isOk = true) ∧
        t = replay (pre ++ es) := by
  induction es generalizing pre with
  | nil =>
    simp only [List.foldlM_nil, List.append_nil, pure, Except.pure, Except.ok.injEq]
    exact ⟨fun h => ⟨fun q₁ x q₂ hs => absurd hs (not_nil_eq_split q₁ x q₂), h.symm⟩,
      fun h => h.2.symm⟩
  | cons e es ih =>
    rw [List.foldlM_cons, forall_splits_cons, List.append_nil]
    have hstep : (replay pre).register e.stage e.run = registration pre e := rfl
    rw [hstep]
    cases hr : registration pre e with
    | error err =>
      -- the first registration fails, and so does the whole
      simp only [bind, Except.bind, reduceCtorEq, isOk_error, Bool.false_eq_true, false_and]
    | ok t' =>
      rw [eq_replay_of_registration hr, isOk_ok]
      simp only [bind, Except.bind, true_and]
      rw [ih (pre ++ [e])]
      simp only [List.append_assoc, List.singleton_append]

/-- Registering entries one after another fails exactly with the error of the first
registration that fails. -/
theorem foldlM_register_eq_error_iff (pre es : List HookEntry) (err : Error) :
    es.foldlM (fun t e => t.register e.stage e.run) (replay pre) = .error err ↔
      ∃ q₁ x q₂, es = q₁ ++ x :: q₂ ∧ registration (pre ++ q₁) x = .error err ∧
        ∀ r₁ y r₂, q₁ = r₁ ++ y :: r₂ → (registration (pre ++ r₁) y).isOk = true := by
  induction es generalizing pre with
  | nil =>
    simp only [List.foldlM_nil, pure, Except.pure, reduceCtorEq, false_iff, not_exists, not_and]
    exact fun q₁ x q₂ hs => absurd hs (not_nil_eq_split q₁ x q₂)
  | cons e es ih =>
    rw [List.foldlM_cons, exists_splits_cons, List.append_nil]
    have hstep : (replay pre).register e.stage e.run = registration pre e := rfl
    rw [hstep]
    cases hr : registration pre e with
    | error err' =>
      -- the first entry fails; a later failure would need it to succeed
      simp only [bind, Except.bind, Except.error.injEq]
      constructor
      · rintro rfl
        exact .inl ⟨rfl, fun r₁ y r₂ hs => absurd hs (not_nil_eq_split r₁ y r₂)⟩
      · rintro (⟨h, -⟩ | ⟨q₁, x, q₂, -, -, hall⟩)
        · exact h
        · have hfirst := hall [] e q₁ rfl
          rw [List.append_nil, hr, isOk_error] at hfirst
          cases hfirst
    | ok t' =>
      rw [eq_replay_of_registration hr]
      simp only [bind, Except.bind, reduceCtorEq, false_and, false_or]
      rw [ih (pre ++ [e])]
      refine exists_congr fun q₁ => exists_congr fun x => exists_congr fun q₂ => ?_
      simp only [List.append_assoc, List.singleton_append]
      refine and_congr_right fun _ => and_congr_right fun _ => ?_
      rw [forall_splits_cons, List.append_nil, hr, isOk_ok]
      simp only [true_and]

-- ============================================================================
-- The whole sequence
-- ============================================================================

/-- Registrations made one after another on one table. Registering an entry after the entries
`pre` fails with a parse error exactly when its stage is `layout` or `package_info` or its
command is blank; otherwise it fails as a duplicate of its stage exactly when an earlier entry
for that stage registered, and succeeds otherwise, with the table that registering `pre` and
the entry leaves; a failed registration leaves the table as it was. The table left maps each
stage to the command of the entry for it that registered and to nothing else, and lists at most
the four hookable stages, in the order source, generate, build, package. Reading a list of
entries into a table succeeds exactly when every registration succeeds, with that table, and
otherwise fails with the error of the first registration that fails. -/
theorem registration_sequence (pre : List HookEntry) (e : HookEntry) :
    ((∃ msg, registration pre e = .error (.parse msg)) ↔
      e.stage = .layout ∨ e.stage = .packageInfo ∨ (Text.trim e.run).isEmpty = true) ∧
    (registration pre e = .error (.duplicateHook e.stage.name) ↔
      e.isValid = true ∧ ∃ cmd, Registered pre e.stage cmd) ∧
    (registration pre e = .ok (replay (pre ++ [e])) ↔
      e.isValid = true ∧ ¬ ∃ cmd, Registered pre e.stage cmd) ∧
    ((registration pre e).isOk = false → replay (pre ++ [e]) = replay pre) ∧
    (∀ s cmd, (replay pre).get? s = some cmd ↔ Registered pre s cmd) ∧
    (replay pre).stages.Sublist [.source, .generate, .build, .package] ∧
    (∀ s, s ∈ (replay pre).stages ↔ ((replay pre).get? s).isSome) ∧
    (∀ t, ofEntries pre = .ok t ↔
      (∀ q₁ x q₂, pre = q₁ ++ x :: q₂ → (registration q₁ x).isOk = true) ∧ t = replay pre) ∧
    (∀ err, ofEntries pre = .error err ↔
      ∃ q₁ x q₂, pre = q₁ ++ x :: q₂ ∧ registration q₁ x = .error err ∧
        ∀ r₁ y r₂, q₁ = r₁ ++ y :: r₂ → (registration r₁ y).isOk = true) := by
  have hreg := registration_eq pre e
  rw [← firstCommand_isSome_iff]
  refine ⟨?_, ?_, ?_, ?_, get?_replay_eq_some_iff pre, (stages_replay pre).1,
    (stages_replay pre).2, fun t => ?_, fun err => ?_⟩
  · rw [← or_assoc, ← acceptsCommand_eq_false_iff]
    cases ha : e.stage.acceptsCommand <;> cases hb : (Text.trim e.run).isEmpty <;>
      cases hf : (firstCommand pre e.stage).isSome <;> simp [hreg, ha, hb, hf]
  · cases ha : e.stage.acceptsCommand <;> cases hb : (Text.trim e.run).isEmpty <;>
      cases hf : (firstCommand pre e.stage).isSome <;> simp [hreg, ha, hb, hf, HookEntry.isValid]
  · cases ha : e.stage.acceptsCommand <;> cases hb : (Text.trim e.run).isEmpty <;>
      cases hf : (firstCommand pre e.stage).isSome <;> simp [hreg, ha, hb, hf, HookEntry.isValid]
  · -- a failed registration is kept out of the table
    intro hfail
    rw [replay_append_single, registerOrKeep]
    cases hr : (replay pre).register e.stage e.run with
    | error _ => rfl
    | ok t => simp [registration, hr, Except.isOk, Except.toBool] at hfail
  · have h := foldlM_register_eq_ok_iff [] pre t
    simp only [List.nil_append] at h
    exact h
  · have h := foldlM_register_eq_error_iff [] pre err
    simp only [List.nil_append] at h
    exact h

/-- Two clones registered for the source stage: the second is a duplicate, is kept out of the
table, and the source stage keeps the first clone. -/
theorem second_source_hook_is_duplicate :
    registration [⟨.source, "git clone --depth 1 x"⟩] ⟨.source, "git clone x"⟩ =
      .error (.duplicateHook "source") ∧
    replay [⟨.source, "git clone --depth 1 x"⟩, ⟨.source, "git clone x"⟩] =
      replay [⟨.source, "git clone --depth 1 x"⟩] ∧
    (replay [⟨.source, "git clone --depth 1 x"⟩, ⟨.source, "git clone x"⟩]).get? .source =
      some "git clone --depth 1 x" := by
  obtain ⟨-, hdup, -, hkeep, -⟩ :=
    registration_sequence [⟨.source, "git clone --depth 1 x"⟩] ⟨.source, "git clone x"⟩
  obtain ⟨-, -, -, -, hget, -⟩ := registration_sequence
    [⟨.source, "git clone --depth 1 x"⟩, ⟨.source, "git clone x"⟩] ⟨.build, "make"⟩
  have hfirst : (registration [] ⟨.source, "git clone --depth 1 x"⟩).isOk = true := by decide
  have hd : registration [⟨.source, "git clone --depth 1 x"⟩] ⟨.source, "git clone x"⟩ =
      .error (.duplicateHook "source") :=
    hdup.mpr ⟨by decide, "git clone --depth 1 x", [], _, [], rfl, rfl, rfl, hfirst⟩
  refine ⟨hd, hkeep (by rw [hd]; rfl), (hget _ _).mpr ?_⟩
  exact ⟨[], _, [⟨.source, "git clone x"⟩], rfl, rfl, rfl, hfirst⟩

end HookTable

end BuildRecipe
