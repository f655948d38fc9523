import BuildRecipe.Proofs.Options.Resolve
import Mathlib.Data.List.Induction
/-!
# Overriding the settings

Settings overrides `name=value` are applied in order to a base. An override is *admissible*
when it names `os`, `arch`, `compiler` or `build_type` and, for `os` and `build_type`, its
value equals the name of a variant up to ASCII case (`admissible`). The first override that
is not admissible stops with its error (`overrideError`).

Main statements: applying overrides has a closed form (`withOverrides_eq`): the error of the
first override that is not admissible, else the base with every setting at the value of the
last override naming it (`overridden`). So reordering overrides with distinct names keeps
every success and keeps every failure a failure
(`withOverrides_last_override_or_first_fault`), but not the error of a failure: with two
offending overrides each order reports its own first one
(`withOverrides_error_follows_override_order`).
-/

namespace BuildRecipe

open BuildOptions (lastOverride lastOverride_cons mem_of_lastOverride lastOverride_perm)

-- ============================================================================
-- Reading a variant up to case
-- ============================================================================

/-- The text with its ASCII capitals made small. -/
def asciiLower (s : String) : List Char := s.toList.map Char.toLower

theorem sameUpToAsciiCase_iff (a b : String) :
    sameUpToAsciiCase a b = true ↔ asciiLower a = asciiLower b := by
  simp [sameUpToAsciiCase, asciiLower]

/-- Among variants whose names differ beyond ASCII case, a text finds the variant whose name it
equals up to case. -/
theorem find?_sameUpToAsciiCase_eq_some_iff {α : Type} {all : List α} {name : α → String}
    (hinj : ∀ a ∈ all, ∀ b ∈ all, asciiLower (name a) = asciiLower (name b) → a = b)
    (v : String) (a : α) :
    all.find? (fun x => sameUpToAsciiCase (name x) v) = some a ↔
      a ∈ all ∧ sameUpToAsciiCase (name a) v = true := by
  let p := fun x => sameUpToAsciiCase (name x) v
  constructor
  · intro h
    exact ⟨List.mem_of_find?_eq_some h, List.find?_some (p := p) h⟩
  · rintro ⟨ha, h⟩
    -- some variant is found, and two variants that match one text are one
    obtain ⟨b, hb⟩ := Option.isSome_iff_exists.mp (List.find?_isSome.mpr ⟨a, ha, h⟩ :
      (all.find? p).isSome)
    have h' : sameUpToAsciiCase (name b) v = true := List.find?_some (p := p) hb
    rw [sameUpToAsciiCase_iff] at h h'
    rw [hb, hinj b (List.mem_of_find?_eq_some hb) a ha (h'.trans h.symm)]

namespace Os

theorem mem_all (o : Os) : o ∈ all := by
  cases o <;> simp [all]

theorem asciiLower_name_injective {o o' : Os} (h : asciiLower o.name = asciiLower o'.name) :
    o = o' := by
  revert h
  cases o <;> cases o' <;> decide

/-- A text reads as the operating system whose name it equals up to ASCII case. -/
theorem ofName?_eq_some_iff (v : String) (o : Os) :
    ofName? v = some o ↔ sameUpToAsciiCase o.name v = true := by
  rw [ofName?, find?_sameUpToAsciiCase_eq_some_iff
    (fun _ _ _ _ h => asciiLower_name_injective h)]
  exact and_iff_right (mem_all o)

theorem ofName?_isSome_iff (v : String) :
    (ofName? v).isSome = true ↔ ∃ o : Os, sameUpToAsciiCase o.name v = true := by
  simp only [Option.isSome_iff_exists, ofName?_eq_some_iff]

end Os

namespace BuildType

theorem mem_all (b : BuildType) : b ∈ all := by
  cases b <;> simp [all]

theorem asciiLower_name_injective {b b' : BuildType}
    (h : asciiLower b.name = asciiLower b'.name) : b = b' := by
  revert h
  cases b <;> cases b' <;> decide

/-- A text reads as the build type whose name it equals up to ASCII case. -/
theorem ofName?_eq_some_iff (v : String) (b : BuildType) :
    ofName? v = some b ↔ sameUpToAsciiCase b.name v = true := by
  rw [ofName?, find?_sameUpToAsciiCase_eq_some_iff
    (fun _ _ _ _ h => asciiLower_name_injective h)]
  exact and_iff_right (mem_all b)

theorem ofName?_isSome_iff (v : String) :
    (ofName? v).isSome = true ↔ ∃ b : BuildType, sameUpToAsciiCase b.name v = true := by
  simp only [Option.isSome_iff_exists, ofName?_eq_some_iff]

end BuildType

namespace Settings

-- ============================================================================
-- One override
-- ============================================================================

/-- An override names a setting and, for `os` and `build_type`, gives a value that reads as
a variant. -/
def admissible (ov : String × String) : Bool :=
  if ov.1 = "os" then (Os.ofName? ov.2).isSome
  else if ov.1 = "arch" ∨ ov.1 = "compiler" then true
  else if ov.1 = "build_type" then (BuildType.ofName? ov.2).isSome
  else false

/-- The error an override that is not admissible stops with. -/
def overrideError (ov : String × String) : Error :=
  if ov.1 = "os" then .parse ("Unknown os '" ++ ov.2 ++ "'")
  else if ov.1 = "build_type" then .parse ("Unknown build_type '" ++ ov.2 ++ "'")
  else .parse ("Unknown setting '" ++ ov.1 ++ "' (expected os, arch, compiler or build_type)")

/-- The base with every setting at the value of the last override naming it; `os` and
`build_type` at the variant that value reads as. -/
def overridden (s : Settings) (ovs : List (String × String)) : Settings where
  os := ((lastOverride ovs "os").bind Os.ofName?).getD s.os
  arch := (lastOverride ovs "arch").getD s.arch
  compiler := (lastOverride ovs "compiler").getD s.compiler
  buildType := ((lastOverride ovs "build_type").bind BuildType.ofName?).getD s.buildType

theorem admissible_iff (n v : String) :
    admissible (n, v) = true ↔
      (n = "os" ∧ ∃ o : Os, sameUpToAsciiCase o.name v = true) ∨ n = "arch" ∨ n = "compiler" ∨
        (n = "build_type" ∧ ∃ b : BuildType, sameUpToAsciiCase b.name v = true) := by
  by_cases hos : n = "os"
  · subst hos
    simp [admissible, Os.ofName?_isSome_iff]
  by_cases hbt : n = "build_type"
  · subst hbt
    simp [admissible, BuildType.ofName?_isSome_iff]
  · simp [admissible, hos, hbt]

theorem override_of_not_admissible (s : Settings) {n v : String}
    (h : admissible (n, v) = false) : s.override n v = .error (overrideError (n, v)) := by
  by_cases hos : n = "os"
  · subst hos
    have hv : Os.ofName? v = none := by simpa [admissible] using h
    simp [override, overrideError, hv]
  by_cases harch : n = "arch" ∨ n = "compiler"
  · simp [admissible, harch, hos] at h
  by_cases hbt : n = "build_type"
  · subst hbt
    have hv : BuildType.ofName? v = none := by simpa [admissible] using h
    simp [override, overrideError, hv]
  · rw [not_or] at harch
    simp [override, overrideError, hos, harch.1, harch.2, hbt]

theorem lastOverride_append_single (ovs : List (String × String)) (k r name : String) :
    lastOverride (ovs ++ [(k, r)]) name = if k = name then some r else lastOverride ovs name := by
  by_cases h : k = name <;> simp [lastOverride, List.filter_append, h]

@[simp] theorem overridden_nil (s : Settings) : s.overridden [] = s := rfl

/-- An admissible override applied after others leaves every setting at what the last
override naming it gives. -/
theorem override_overridden (s : Settings) (ovs : List (String × String)) {n v : String}
    (h : admissible (n, v) = true) :
    (s.overridden ovs).override n v = .ok (s.overridden (ovs ++ [(n, v)])) := by
  by_cases hos : n = "os"
  · subst hos
    obtain ⟨o, ho⟩ := Option.isSome_iff_exists.mp (by simpa [admissible] using h)
    simp [override, overridden, ho, lastOverride_append_single]
  by_cases harch : n = "arch"
  · subst harch
    simp [override, overridden, lastOverride_append_single]
  by_cases hcomp : n = "compiler"
  · subst hcomp
    simp [override, overridden, lastOverride_append_single]
  by_cases hbt : n = "build_type"
  · subst hbt
    obtain ⟨b, hb⟩ := Option.isSome_iff_exists.mp (by simpa [admissible] using h)
    simp [override, overridden, hb, lastOverride_append_single]
  · simp [admissible, hos, harch, hcomp, hbt] at h

-- ============================================================================
-- The closed form
-- ============================================================================

/-- Applying overrides fails with the error of the first override that is not admissible, and
otherwise leaves every setting at the value of the last override naming it; the induction
takes the overrides from the last one. -/
theorem withOverrides_eq (s : Settings) (ovs : List (String × String)) :
    s.withOverrides ovs =
      match ovs.find? (fun ov => !admissible ov) with
      | some ov => .error (overrideError ov)
      | none => .ok (s.overridden ovs) := by
  induction ovs using List.reverseRecOn with
  | nil => rfl
  | append_singleton ovs ov ih =>
    obtain ⟨n, v⟩ := ov
    rw [withOverrides_append, ih, List.find?_append]
    cases hf : ovs.find? (fun ov => !admissible ov) with
    | some bad => rfl
    | none =>
      show (s.overridden ovs).withOverrides [(n, v)] = _
      -- the last override decides: it stops with its error, or it sets its setting
      cases h : admissible (n, v)
      · rw [withOverrides, override_of_not_admissible _ h]
        simp [h]
      · rw [withOverrides, override_overridden _ _ h]
        simp [h, withOverrides]

theorem withOverrides_eq_ok_iff (s : Settings) (ovs : List (String × String)) (s' : Settings) :
    s.withOverrides ovs = .ok s' ↔ (∀ ov ∈ ovs, admissible ov) ∧ s' = s.overridden ovs := by
  rw [withOverrides_eq]
  exact firstFault_eq_ok_iff _ _ _ _ _

theorem withOverrides_eq_error_iff (s : Settings) (ovs : List (String × String)) (e : Error) :
    s.withOverrides ovs = .error e ↔ ∃ pre ov post, ovs = pre ++ ov :: post ∧
      (∀ x ∈ pre, admissible x) ∧ admissible ov = false ∧ e = overrideError ov := by
  rw [withOverrides_eq]
  exact firstFault_eq_error_iff _ _ _ _ _

/-- With distinct names, the order of the overrides decides no setting. -/
theorem overridden_perm (s : Settings) {ovs ovs' : List (String × String)} (hp : ovs.Perm ovs')
    (hd : (ovs.map (·.1)).Nodup) : s.overridden ovs = s.overridden ovs' := by
  simp only [overridden, lastOverride_perm hp hd]

/-- Reordering overrides with distinct names keeps every success. -/
theorem withOverrides_perm (s : Settings) {ovs ovs' : List (String × String)}
    (hp : ovs.Perm ovs') (hd : (ovs.map (·.1)).Nodup) (s' : Settings) :
    s.withOverrides ovs = .ok s' ↔ s.withOverrides ovs' = .ok s' := by
  rw [withOverrides_eq_ok_iff, withOverrides_eq_ok_iff, overridden_perm s hp hd]
  exact and_congr_left' ⟨fun h ov hov => h ov (hp.mem_iff.mpr hov),
    fun h ov hov => h ov (hp.mem_iff.mp hov)⟩

/-- Settings overrides computed in closed form, with what follows from it: a text reads as the
variant whose name it equals up to ASCII case; an override is admissible when it names one of
the four settings with, for `os` and `build_type`, such a text; applying overrides fails with
the error of the first one that is not admissible, and otherwise gives every setting the value
of the last override naming it, else the base's; and reordering overrides with distinct names
changes neither whether applying them fails nor the settings it gives. -/
theorem withOverrides_last_override_or_first_fault (s : Settings)
    (ovs : List (String × String)) :
    (∀ v o, Os.ofName? v = some o ↔ sameUpToAsciiCase o.name v = true) ∧
    (∀ v b, BuildType.ofName? v = some b ↔ sameUpToAsciiCase b.name v = true) ∧
    (∀ n v, admissible (n, v) = true ↔
      (n = "os" ∧ ∃ o : Os, sameUpToAsciiCase o.name v = true) ∨ n = "arch" ∨ n = "compiler" ∨
        (n = "build_type" ∧ ∃ b : BuildType, sameUpToAsciiCase b.name v = true)) ∧
    (s.withOverrides ovs =
      match ovs.find? (fun ov => !admissible ov) with
      | some ov => .error (overrideError ov)
      | none => .ok (s.overridden ovs)) ∧
    (∀ s', s.withOverrides ovs = .ok s' ↔ (∀ ov ∈ ovs, admissible ov) ∧ s' = s.overridden ovs) ∧
    (∀ e, s.withOverrides ovs = .error e ↔ ∃ pre ov post, ovs = pre ++ ov :: post ∧
      (∀ x ∈ pre, admissible x) ∧ admissible ov = false ∧ e = overrideError ov) ∧
    (∀ ovs', ovs.Perm ovs' → (ovs.map (·.1)).Nodup →
      ((∃ e, s.withOverrides ovs = .error e) ↔ (∃ e, s.withOverrides ovs' = .error e)) ∧
      (∀ s', s.withOverrides ovs = .ok s' ↔ s.withOverrides ovs' = .ok s')) := by
  refine ⟨Os.ofName?_eq_some_iff, BuildType.ofName?_eq_some_iff, admissible_iff,
    withOverrides_eq s ovs, withOverrides_eq_ok_iff s ovs, withOverrides_eq_error_iff s ovs,
    fun ovs' hp hd => ⟨?_, withOverrides_perm s hp hd⟩⟩
  rw [BuildOptions.exists_error_iff_not_ok, BuildOptions.exists_error_iff_not_ok]
  exact not_congr (exists_congr (withOverrides_perm s hp hd))

/-- Two offending overrides with distinct names: each order reports its own first one, so the
error changes with the order. -/
theorem withOverrides_error_follows_override_order :
    [("os", "x"), ("build_type", "y")].Perm [("build_type", "y"), ("os", "x")] ∧
    ([("os", "x"), ("build_type", "y")].map (·.1)).Nodup ∧
    standard.withOverrides [("os", "x"), ("build_type", "y")] =
      .error (.parse "Unknown os 'x'") ∧
    standard.withOverrides [("build_type", "y"), ("os", "x")] =
      .error (.parse "Unknown build_type 'y'") := by
  exact ⟨List.Perm.swap _ _ _, by decide, rfl, rfl⟩

end Settings

end BuildRecipe
