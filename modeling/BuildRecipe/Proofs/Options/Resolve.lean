import BuildRecipe.PackageId
import BuildRecipe.Recipe.Decode
import BuildRecipe.Proofs.Dictionary.Order
/-!
# Resolving build options

Resolution starts from every declared option at its default and applies the overrides in
order. An override must name a declared option and give a value in that option's domain
(`admissible`); the first that does not stops resolution with its error (`overrideError`),
which lists the declared names in order for an unknown name and the allowed values for a
value outside the domain.

The declarations are a map kept in name order: every option table read is built by storing
one declaration after another, so it is in name order (`Decode.options_ordered`), and so are
the options of every recipe read (`Decode.recipe_options_ordered`).

Main statements: resolution has a closed form (`resolve_eq`). It fails with the error of the
first override that is not admissible, and otherwise gives every declared option the value of
the last override naming it, or its default when none does (`resolved`). So the resolved
options have exactly the declared names, lie in their domains when the defaults do, and do
not depend on the order of overrides with distinct names, and neither does the package id
(`resolve_last_override_or_first_fault`). The error of a failure does depend on that order:
it is the first offending override's (`resolve_error_follows_override_order`).
-/

namespace BuildRecipe

namespace BuildOptions

open Dictionary

/-- The value text of the last override naming an option. -/
def lastOverride (ovs : List (String × String)) (name : String) : Option String :=
  ((ovs.filter (·.1 == name)).getLast?).map (·.2)

/-- An override names a declared option and gives a value in its domain. -/
def admissible (specs : OptionSpecs) (ov : String × String) : Bool :=
  match specs.get? ov.1 with
  | none => false
  | some spec => decide (OptionValue.ofText ov.2 ∈ spec.values)

/-- The error an override that is not admissible stops resolution with. -/
def overrideError (specs : OptionSpecs) (ov : String × String) : Error :=
  match specs.get? ov.1 with
  | none => unknownOption specs ov.1
  | some spec => invalidValue spec ov.1 ov.2

/-- Every declared option at the value of the last override naming it, else at `base`. -/
def overridden (specs : OptionSpecs) (base : String → OptionSpec → OptionValue)
    (ovs : List (String × String)) : BuildOptions :=
  Dictionary.mapValues specs fun name spec =>
    ((lastOverride ovs name).map OptionValue.ofText).getD (base name spec)

/-- Every declared option at the value of the last override naming it, else at its default. -/
def resolved (specs : OptionSpecs) (ovs : List (String × String)) : BuildOptions :=
  overridden specs (fun _ spec => spec.default) ovs

-- ============================================================================
-- The last override naming an option
-- ============================================================================

@[simp] theorem lastOverride_nil (name : String) : lastOverride [] name = none := rfl

theorem lastOverride_cons (k r : String) (ovs : List (String × String)) (name : String) :
    lastOverride ((k, r) :: ovs) name =
      (lastOverride ovs name).or (if k = name then some r else none) := by
  unfold lastOverride
  by_cases h : k = name
  · cases hl : (ovs.filter (·.1 == name)).getLast? <;> simp [h, hl, List.getLast?_cons]
  · simp [h]

theorem mem_of_lastOverride {ovs : List (String × String)} {name r : String}
    (h : lastOverride ovs name = some r) : (name, r) ∈ ovs := by
  obtain ⟨ov, hov, rfl⟩ := Option.map_eq_some_iff.mp h
  have hmem := List.mem_filter.mp (List.mem_of_getLast? hov)
  have hname : ov.1 = name := by simpa using hmem.2
  exact hname ▸ hmem.1

/-- With distinct names, each option is named by at most one override, so the order of the
overrides does not decide which one is last. -/
theorem lastOverride_perm {ovs ovs' : List (String × String)} (hp : ovs.Perm ovs')
    (hd : (ovs.map (·.1)).Nodup) (name : String) :
    lastOverride ovs name = lastOverride ovs' name := by
  unfold lastOverride
  have hperm := hp.filter (·.1 == name)
  -- the overrides naming `name` are at most one
  have hsub : ((ovs.filter (·.1 == name)).map (·.1)).Nodup :=
    hd.sublist ((List.filter_sublist).map _)
  have hall : ∀ x ∈ (ovs.filter (·.1 == name)).map (·.1), x = name := by
    intro x hx
    obtain ⟨ov, hov, rfl⟩ := List.mem_map.mp hx
    simpa using (List.mem_filter.mp hov).2
  rcases hf : ovs.filter (·.1 == name) with _ | ⟨a, _ | ⟨b, rest⟩⟩
  · rw [hf] at hperm
    rw [hf, ← hperm.nil_eq]
  · rw [hf] at hperm
    rw [hf, List.perm_singleton.mp hperm.symm]
  · -- two overrides would both name `name`
    rw [hf] at hsub hall
    have ha := hall a.1 (by simp)
    have hb := hall b.1 (by simp)
    simp [ha, hb] at hsub

end BuildOptions

-- ============================================================================
-- Overrides checked in order
-- ============================================================================

/-- An outcome that fails with the error of the first override a check refuses, and succeeds
otherwise, succeeds exactly when the check accepts every override. -/
theorem firstFault_eq_ok_iff {β : Type} (l : List (String × String))
    (p : String × String → Bool) (f : String × String → Error) (y x : β) :
    (match l.find? (fun a => !p a) with
      | some a => (.error (f a) : Outcome β)
      | none => .ok y) = .ok x ↔ (∀ a ∈ l, p a) ∧ x = y := by
  cases hf : l.find? (fun a => !p a) with
  | some a =>
    have hbad := List.find?_some hf
    simp only [reduceCtorEq, false_iff, not_and]
    intro hall
    simp [hall a (List.mem_of_find?_eq_some hf)] at hbad
  | none =>
    have hall : ∀ a ∈ l, p a := by simpa using hf
    simp only [Except.ok.injEq]
    exact ⟨fun h => ⟨hall, h.symm⟩, fun h => h.2.symm⟩

/-- Such an outcome fails exactly when some override is refused after overrides that were all
accepted, and then with that override's error. -/
theorem firstFault_eq_error_iff {β : Type} (l : List (String × String))
    (p : String × String → Bool) (f : String × String → Error) (y : β) (e : Error) :
    (match l.find? (fun a => !p a) with
      | some a => (.error (f a) : Outcome β)
      | none => .ok y) = .error e ↔
      ∃ pre a post, l = pre ++ a :: post ∧ (∀ x ∈ pre, p x) ∧ p a = false ∧ e = f a := by
  constructor
  · intro h
    cases hf : l.find? (fun a => !p a) with
    | none => simp [hf] at h
    | some a =>
      simp only [hf, Except.error.injEq] at h
      obtain ⟨hbad, pre, post, rfl, hpre⟩ := List.find?_eq_some_iff_append.mp hf
      exact ⟨pre, a, post, rfl, by simpa using hpre, by simpa using hbad, h.symm⟩
  · rintro ⟨pre, a, post, rfl, hpre, hbad, rfl⟩
    have hf : (pre ++ a :: post).find? (fun a => !p a) = some a :=
      List.find?_eq_some_iff_append.mpr ⟨by simp [hbad], pre, post, rfl, by simpa using hpre⟩
    rw [hf]

-- ============================================================================
-- Declared options are in name order
-- ============================================================================

namespace Decode

variable {α : Type}

theorem placedAt_eq_ok {s : Option Toml.Span} {r : Except DecodeError α} {a : α}
    (h : placedAt s r = .ok a) : r = .ok a := by
  unfold placedAt at h
  split at h
  · exact h
  · cases h

theorem bind_eq_ok {β : Type} {x : Except DecodeError α} {f : α → Except DecodeError β} {b : β}
    (h : x >>= f = .ok b) : ∃ a, x = .ok a ∧ f a = .ok b := by
  cases x with
  | error e => cases h
  | ok a => exact ⟨a, rfl, h⟩

theorem record_eq_ok {shape : Shape} {item : Toml.Item} {body : Fields → Except DecodeError α}
    {a : α} (h : record shape item body = .ok a) : ∃ fs, body fs = .ok a := by
  unfold record at h
  have h' := placedAt_eq_ok h
  split at h'
  all_goals first | exact ⟨_, h'⟩ | cases h'

theorem optional_eq_ok_some {fs : Fields} {shape : Shape} {field : String}
    {read : Toml.Item → Except DecodeError α} {a : α}
    (h : fs.optional shape field read = .ok (some a)) : ∃ item, read item = .ok a := by
  unfold Fields.optional at h
  split at h
  · rename_i item place _
    cases hr : read item with
    | error e => simp [hr, placedAt, Except.map] at h
    | ok b =>
      simp only [hr, placedAt, Except.map, Except.ok.injEq, Option.some.injEq] at h
      exact ⟨item, h ▸ hr⟩
  · cases h

/-- A fold that stores one entry at each step, or fails, keeps the names strictly
increasing; the induction is on the entries folded. -/
theorem ordered_foldlM_insert {γ : Type} {step : Dictionary α → γ → Except DecodeError (Dictionary α)}
    (hstep : ∀ d x d', step d x = .ok d' → ∃ k v, d' = d.insert k v) :
    ∀ (xs : List γ) {d d' : Dictionary α}, d.Ordered → xs.foldlM step d = .ok d' → d'.Ordered
  | [], _, _, hd, h => by
    cases h
    exact hd
  | x :: xs, d, _, hd, h => by
    rw [List.foldlM_cons] at h
    obtain ⟨d₁, hs, h⟩ := bind_eq_ok h
    obtain ⟨k, v, rfl⟩ := hstep d x d₁ hs
    exact ordered_foldlM_insert hstep xs (hd.insert k v) h

/-- Every option table read is in name order: it is built by storing one declaration after
another. -/
theorem options_ordered {item : Toml.Item} {specs : OptionSpecs} (h : options item = .ok specs) :
    specs.Ordered := by
  unfold options at h
  have h' := placedAt_eq_ok h
  split at h'
  · refine ordered_foldlM_insert (fun d x d' hx => ?_) _
      (show Dictionary.Ordered ([] : OptionSpecs) from List.Pairwise.nil) h'
    obtain ⟨spec, -, hx⟩ := bind_eq_ok hx
    exact ⟨x.1.name, spec, (Except.ok.inj hx).symm⟩
  · cases h'

/-- The options every recipe read declares are in name order. -/
theorem recipe_options_ordered {item : Toml.Item} {r : Recipe} (h : recipe item = .ok r) :
    r.options.Ordered := by
  -- the recipe's fields are read one after another, the options third
  obtain ⟨fs, h⟩ := record_eq_ok h
  obtain ⟨_, -, h⟩ := bind_eq_ok h
  obtain ⟨_, -, h⟩ := bind_eq_ok h
  obtain ⟨opts, hopts, h⟩ := bind_eq_ok h
  obtain ⟨_, -, h⟩ := bind_eq_ok h
  obtain ⟨_, -, h⟩ := bind_eq_ok h
  obtain ⟨_, -, h⟩ := bind_eq_ok h
  cases h
  cases opts with
  | none => exact List.Pairwise.nil
  | some specs =>
    obtain ⟨_, hspecs⟩ := optional_eq_ok_some hopts
    exact options_ordered hspecs

end Decode

namespace BuildOptions

open Dictionary

-- ============================================================================
-- The closed form
-- ============================================================================

/-- Applying overrides to options that each hold a value computed from their declaration
computes the value of the last override naming them instead, or stops at the first override
that is not admissible; the induction is on the overrides. -/
theorem applyOverrides_overridden {specs : OptionSpecs} (hs : Dictionary.Ordered specs)
    (base : String → OptionSpec → OptionValue) (ovs : List (String × String)) :
    applyOverrides specs (Dictionary.mapValues specs base) ovs =
      match ovs.find? (fun ov => !admissible specs ov) with
      | some ov => .error (overrideError specs ov)
      | none => .ok (overridden specs base ovs) := by
  induction ovs generalizing base with
  | nil => simp [applyOverrides, overridden]
  | cons ov rest ih =>
    obtain ⟨name, raw⟩ := ov
    unfold applyOverrides
    cases hg : specs.get? name with
    | none => simp [admissible, overrideError, hg]
    | some spec =>
      by_cases hv : OptionValue.ofText raw ∈ spec.values
      · -- an admissible override sets its option and resolution goes on
        have hadm : admissible specs (name, raw) = true := by simp [admissible, hg, hv]
        simp only [hv, if_true, List.find?_cons, hadm, Bool.not_true]
        rw [insert_mapValues hs (mem_keys_of_get? hg), ih]
        cases rest.find? (fun ov => !admissible specs ov) with
        | some ov => rfl
        | none =>
          simp only [overridden]
          congr 2
          funext k s
          rw [lastOverride_cons]
          cases lastOverride rest k with
          | some r => rfl
          | none => by_cases hk : name = k <;> simp [hk, Eq.comm]
      · simp [admissible, overrideError, hg, hv]

/-- Resolution fails with the error of the first override that is not admissible, and
otherwise gives every declared option the value of the last override naming it, else its
default. -/
theorem resolve_eq {specs : OptionSpecs} (hs : Dictionary.Ordered specs)
    (ovs : List (String × String)) :
    resolve specs ovs =
      match ovs.find? (fun ov => !admissible specs ov) with
      | some ov => .error (overrideError specs ov)
      | none => .ok (resolved specs ovs) :=
  applyOverrides_overridden hs (fun _ spec => spec.default) ovs

theorem resolve_eq_ok_iff {specs : OptionSpecs} (hs : Dictionary.Ordered specs)
    {ovs : List (String × String)} {o : BuildOptions} :
    resolve specs ovs = .ok o ↔ (∀ ov ∈ ovs, admissible specs ov) ∧ o = resolved specs ovs := by
  rw [resolve_eq hs]
  exact firstFault_eq_ok_iff _ _ _ _ _

theorem resolve_eq_error_iff {specs : OptionSpecs} (hs : Dictionary.Ordered specs)
    {ovs : List (String × String)} {e : Error} :
    resolve specs ovs = .error e ↔ ∃ pre ov post, ovs = pre ++ ov :: post ∧
      (∀ x ∈ pre, admissible specs x) ∧ admissible specs ov = false ∧
      e = overrideError specs ov := by
  rw [resolve_eq hs]
  exact firstFault_eq_error_iff _ _ _ _ _

-- ============================================================================
-- What the resolved options hold
-- ============================================================================

theorem keys_resolved (specs : OptionSpecs) (ovs : List (String × String)) :
    (resolved specs ovs).keys = specs.keys := by
  rw [resolved, overridden, keys_mapValues]

theorem get?_resolved (specs : OptionSpecs) (ovs : List (String × String)) (name : String) :
    (resolved specs ovs).get? name = (specs.get? name).map fun spec =>
      ((lastOverride ovs name).map OptionValue.ofText).getD spec.default := by
  rw [resolved, overridden, get?_mapValues]

/-- When every default lies in its domain and every override is admissible, every resolved
value lies in the domain of its option. -/
theorem resolved_mem_values {specs : OptionSpecs} {ovs : List (String × String)}
    (hdef : ∀ e ∈ specs, e.2.default ∈ e.2.values) (hadm : ∀ ov ∈ ovs, admissible specs ov)
    {name : String} {v : OptionValue} (h : (resolved specs ovs).get? name = some v) :
    ∃ spec, specs.get? name = some spec ∧ v ∈ spec.values := by
  rw [get?_resolved] at h
  obtain ⟨spec, hg, rfl⟩ := Option.map_eq_some_iff.mp h
  refine ⟨spec, hg, ?_⟩
  cases hl : lastOverride ovs name with
  | none => exact hdef _ (mem_of_get? hg)
  | some raw =>
    -- the last override naming the option is admissible
    have ha := hadm _ (mem_of_lastOverride hl)
    simp only [admissible, hg, decide_eq_true_eq] at ha
    simpa using ha

theorem resolved_perm (specs : OptionSpecs) {ovs ovs' : List (String × String)}
    (hp : ovs.Perm ovs') (hd : (ovs.map (·.1)).Nodup) :
    resolved specs ovs = resolved specs ovs' := by
  simp only [resolved, overridden, lastOverride_perm hp hd]

/-- Reordering overrides with distinct names keeps every successful resolution. -/
theorem resolve_perm {specs : OptionSpecs} (hs : Dictionary.Ordered specs)
    {ovs ovs' : List (String × String)} (hp : ovs.Perm ovs') (hd : (ovs.map (·.1)).Nodup)
    (o : BuildOptions) : resolve specs ovs = .ok o ↔ resolve specs ovs' = .ok o := by
  rw [resolve_eq_ok_iff hs, resolve_eq_ok_iff hs, resolved_perm specs hp hd]
  exact and_congr_left' ⟨fun h ov hov => h ov (hp.mem_iff.mpr hov),
    fun h ov hov => h ov (hp.mem_iff.mp hov)⟩

theorem exists_error_iff_not_ok {α : Type} (r : Outcome α) :
    (∃ e, r = .error e) ↔ ¬ ∃ x, r = .ok x := by
  cases r <;> simp

/-- Resolution of declarations in name order, as every recipe read declares them
(`Decode.recipe_options_ordered`), computed in closed form, with what follows from it: it fails
with the error of the first override that is not admissible, and otherwise every declared option takes the value
of the last override naming it, else its default; the result has exactly the declared names,
its values lie in their domains when the defaults do, and reordering overrides with distinct
names changes neither whether resolution fails, nor the options resolved, nor the package id. -/
theorem resolve_last_override_or_first_fault (specs : OrderedDictionary OptionSpec)
    (ovs : List (String × String)) :
    (resolve specs.1 ovs =
      match ovs.find? (fun ov => !admissible specs.1 ov) with
      | some ov => .error (overrideError specs.1 ov)
      | none => .ok (resolved specs.1 ovs)) ∧
    (∀ o, resolve specs.1 ovs = .ok o ↔
      (∀ ov ∈ ovs, admissible specs.1 ov) ∧ o = resolved specs.1 ovs) ∧
    (∀ e, resolve specs.1 ovs = .error e ↔ ∃ pre ov post, ovs = pre ++ ov :: post ∧
      (∀ x ∈ pre, admissible specs.1 x) ∧ admissible specs.1 ov = false ∧
      e = overrideError specs.1 ov) ∧
    (resolved specs.1 ovs).keys = specs.1.keys ∧
    (∀ name, (resolved specs.1 ovs).get? name = (specs.1.get? name).map fun spec =>
      ((lastOverride ovs name).map OptionValue.ofText).getD spec.default) ∧
    ((∀ e ∈ specs.1, e.2.default ∈ e.2.values) → ∀ o, resolve specs.1 ovs = .ok o →
      ∀ name v, o.get? name = some v → ∃ spec, specs.1.get? name = some spec ∧ v ∈ spec.values) ∧
    (∀ ovs', ovs.Perm ovs' → (ovs.map (·.1)).Nodup →
      ((∃ e, resolve specs.1 ovs = .error e) ↔ (∃ e, resolve specs.1 ovs' = .error e)) ∧
      (∀ o, resolve specs.1 ovs = .ok o ↔ resolve specs.1 ovs' = .ok o) ∧
      ∀ (p : Package) (s : Settings) (o o' : BuildOptions), resolve specs.1 ovs = .ok o →
        resolve specs.1 ovs' = .ok o' → packageId p s o = packageId p s o') := by
  refine ⟨resolve_eq specs.2 ovs, fun _ => resolve_eq_ok_iff specs.2,
    fun _ => resolve_eq_error_iff specs.2, keys_resolved specs.1 ovs, get?_resolved specs.1 ovs,
    ?_, ?_⟩
  · intro hdef o ho name v hv
    obtain ⟨hadm, rfl⟩ := (resolve_eq_ok_iff specs.2).mp ho
    exact resolved_mem_values hdef hadm hv
  · intro ovs' hp hd
    have hok := resolve_perm specs.2 hp hd
    refine ⟨?_, hok, fun p s o o' h h' => ?_⟩
    · rw [exists_error_iff_not_ok, exists_error_iff_not_ok]
      exact not_congr (exists_congr hok)
    · -- both orders resolve to the same options
      rw [(hok o).mp h, Except.ok.injEq] at h'
      rw [h']

/-- The declaration of the `shared` flag alone, off by default. -/
def sharedSpecs : OptionSpecs := [("shared", ⟨[.flag true, .flag false], .flag false⟩)]

/-- Two unknown options with distinct names: each order of the overrides reports its own
first one, so the error changes with the order. -/
theorem resolve_error_follows_override_order :
    [("a", "1"), ("b", "1")].Perm [("b", "1"), ("a", "1")] ∧
    ([("a", "1"), ("b", "1")].map (·.1)).Nodup ∧
    resolve sharedSpecs [("a", "1"), ("b", "1")] =
      .error (.parse "Unknown option 'a' (declared: shared)") ∧
    resolve sharedSpecs [("b", "1"), ("a", "1")] =
      .error (.parse "Unknown option 'b' (declared: shared)") ∧
    resolve sharedSpecs [("a", "1"), ("b", "1")] ≠ resolve sharedSpecs [("b", "1"), ("a", "1")] := by
  have ha : resolve sharedSpecs [("a", "1"), ("b", "1")] =
      .error (.parse "Unknown option 'a' (declared: shared)") := rfl
  have hb : resolve sharedSpecs [("b", "1"), ("a", "1")] =
      .error (.parse "Unknown option 'b' (declared: shared)") := rfl
  refine ⟨List.Perm.swap _ _ _, by decide, ha, hb, ?_⟩
  rw [ha, hb]
  intro h
  exact absurd (Except.error.inj h) (by decide)

/-- The declarations of the `shared` and `fpic` flags, both off by default. -/
def flagSpecs : OptionSpecs :=
  [("fpic", ⟨[.flag true, .flag false], .flag false⟩),
    ("shared", ⟨[.flag true, .flag false], .flag false⟩)]

/-- Turning on `shared` and `fpic` in either order resolves to the same options. -/
theorem flag_overrides_commute :
    Dictionary.Ordered flagSpecs ∧
    resolve flagSpecs [("shared", "true"), ("fpic", "true")] =
      .ok [("fpic", .flag true), ("shared", .flag true)] ∧
    resolve flagSpecs [("fpic", "true"), ("shared", "true")] =
      .ok [("fpic", .flag true), ("shared", .flag true)] := by
  have hs : Dictionary.Ordered flagSpecs := by decide
  obtain ⟨-, hok, -, -, -, -, hperm⟩ :=
    resolve_last_override_or_first_fault ⟨flagSpecs, hs⟩ [("shared", "true"), ("fpic", "true")]
  have hadm : ∀ ov ∈ [("shared", "true"), ("fpic", "true")], admissible flagSpecs ov = true := by
    decide
  have hr : resolve flagSpecs [("shared", "true"), ("fpic", "true")] =
      .ok [("fpic", .flag true), ("shared", .flag true)] :=
    (hok _).mpr ⟨hadm, rfl⟩
  exact ⟨hs, hr, ((hperm _ (List.Perm.swap _ _ _) (by decide)).2.1 _).mp hr⟩

end BuildOptions

end BuildRecipe
