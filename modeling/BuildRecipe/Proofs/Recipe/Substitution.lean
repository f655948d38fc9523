import BuildRecipe.Recipe.Basic
import BuildRecipe.Proofs.PackageId.Lines
/-!
# Substituting the variables of a template

A hook command may name the recipe's variables as `%(name)s`, `%(version)s`, `%(url)s`,
`%(build_folder)s` and `%(package_folder)s`. Substitution replaces them one variable after the
other, each pass over the whole text, so a later pass reads again what an earlier one inserted:
a value that holds a pattern, and a pattern that an inserted value completes with the template
around it.

The substitution the variables' syntax suggests is one scan that replaces every pattern where
the template has it and copies everything else (`Template.fillOnce`). The passes agree with that
scan when neither re-reading can happen: no value but the last holds `%`, and every `%` of the
template either opens a pattern `%(x)s` whose name holds neither `%` nor `)`, or stands before
anything but `(`, and never directly before a variable's pattern (`Template.guarded`).

Main statements: a pass for one variable followed by the scan for the rest is the scan for all
(`Template.fillOnce_cons`), a pass keeps a template guarded (`Template.guarded_replaceAll`),
so the passes are the scan (`Template.fillOnce_eq_passes`) and substitution is the scan on
guarded templates (`Recipe.substitute_eq_fillVariables`). A value that holds a pattern is
substituted again (`Recipe.substitute_rereads_inserted_text`).
-/

namespace BuildRecipe

namespace Template

open Text (replaceAll)

/-- The pattern naming a variable in a template: `%(key)s`. -/
def placeholder (key : List Char) : List Char := '%' :: '(' :: (key ++ [')', 's'])

/-- A variable name that neither ends a pattern early nor begins one: it holds neither `%`
nor `)`. -/
def PlainKey (key : List Char) : Prop := '%' ∉ key ∧ ')' ∉ key

instance (key : List Char) : Decidable (PlainKey key) :=
  inferInstanceAs (Decidable ('%' ∉ key ∧ ')' ∉ key))

/-- One scan of the template from the left: where the patterns of variables begin, the first
such variable's value replaces its pattern, and every other character is copied. -/
def fillOnce (vars : List (List Char × List Char)) : List Char → List Char
  | [] => []
  | c :: cs =>
    match vars.find? (fun kv => (placeholder kv.1).isPrefixOf (c :: cs)) with
    | some kv => kv.2 ++ fillOnce vars ((c :: cs).drop (placeholder kv.1).length)
    | none => c :: fillOnce vars cs
termination_by t => t.length
decreasing_by
  all_goals simp only [List.length_drop, List.length_cons, placeholder, List.length_append]
  all_goals omega

/-- The text after `%(` names a variable free of `%` and `)` and closes it with `)s`. -/
def closesName : List Char → Bool
  | [] => false
  | c :: rest => if c = ')' then rest.head? == some 's' else c != '%' && closesName rest

/-- After a `%`, a `(` opens a pattern that closes. -/
def opensPattern : List Char → Bool
  | [] => true
  | c :: inner => c != '(' || closesName inner

/-- What a `%` of a template may stand before: a pattern that closes, or anything but `(`, and
never the pattern of one of `keys`. -/
def safeAfterPercent (keys : List (List Char)) (rest : List Char) : Bool :=
  opensPattern rest && !keys.any fun k => (placeholder k).isPrefixOf rest

/-- Every `%` of the text stands where `safeAfterPercent` allows. -/
def guarded (keys : List (List Char)) : List Char → Bool
  | [] => true
  | c :: cs => (c != '%' || safeAfterPercent keys cs) && guarded keys cs

-- ============================================================================
-- Patterns
-- ============================================================================

theorem placeholder_ne_nil (k : List Char) : placeholder k ≠ [] := List.cons_ne_nil _ _

theorem not_prefix_of_ne_percent {k : List Char} {c : Char} (hc : c ≠ '%') (cs : List Char) :
    ¬ placeholder k <+: c :: cs := by
  simp [placeholder, Ne.symm hc]

theorem not_prefix_of_ne_paren {k : List Char} {d : Char} (hd : d ≠ '(') (cs : List Char) :
    ¬ placeholder k <+: '%' :: d :: cs := by
  simp [placeholder, Ne.symm hd]

theorem not_prefix_percent_nil (k : List Char) : ¬ placeholder k <+: ['%'] := by
  simp [placeholder]

/-- Two patterns at one place are one: the first `)` after `%(` ends both names. -/
theorem placeholder_prefix_iff {k x : List Char} (hk : ')' ∉ k) (hx : ')' ∉ x) (w : List Char) :
    placeholder k <+: placeholder x ++ w ↔ k = x := by
  constructor
  · rintro ⟨t, ht⟩
    simp only [placeholder, List.cons_append, List.cons.injEq, true_and, List.append_assoc] at ht
    exact (append_cons_inj_of_not_mem hk hx ht).1
  · rintro rfl
    exact List.prefix_append _ _

/-- The text after `%(` closes a plain name exactly when it is such a name and `)s`. -/
theorem closesName_iff (inner : List Char) :
    closesName inner = true ↔ ∃ x w, inner = x ++ ')' :: 's' :: w ∧ PlainKey x := by
  induction inner with
  | nil => simp [closesName]
  | cons c rest ih =>
    by_cases hc : c = ')'
    · subst hc
      constructor
      · intro h
        -- the name is empty, and `s` follows
        obtain ⟨w, rfl⟩ : ∃ w, rest = 's' :: w := by
          cases rest with
          | nil => simp [closesName] at h
          | cons d w => simp [closesName] at h; exact ⟨w, by rw [h]⟩
        exact ⟨[], w, rfl, by simp [PlainKey]⟩
      · rintro ⟨x, w, h, hx⟩
        cases x with
        | nil =>
          obtain ⟨-, rfl⟩ := List.cons.inj h
          simp [closesName]
        | cons y ys =>
          obtain ⟨rfl, -⟩ := List.cons.inj h
          exact absurd List.mem_cons_self hx.2
    · simp only [closesName, hc, if_false, Bool.and_eq_true, bne_iff_ne, ne_eq, ih]
      constructor
      · rintro ⟨hp, x, w, rfl, hx⟩
        exact ⟨c :: x, w, rfl, by simp [PlainKey, hx.1, hx.2, Ne.symm hp, Ne.symm hc]⟩
      · rintro ⟨x, w, h, hx⟩
        cases x with
        | nil => exact absurd (List.cons.inj h).1 hc
        | cons y ys =>
          obtain ⟨rfl, rfl⟩ := List.cons.inj h
          simp only [PlainKey, List.mem_cons, not_or] at hx
          exact ⟨Ne.symm hx.1.1, ys, w, rfl, hx.1.2, hx.2.2⟩

theorem placeholder_append (x w : List Char) :
    placeholder x ++ w = '%' :: '(' :: (x ++ ')' :: 's' :: w) := by
  simp [placeholder]

/-- A pattern's name and its closing `)s` hold no `%`. -/
theorem percent_not_mem_inner {x : List Char} (hx : PlainKey x) :
    '%' ∉ '(' :: (x ++ [')', 's']) := by
  simp [hx.1]

/-- A scan that copies every character but `%` and goes on copies a text without `%`. -/
theorem copies_append_of_not_mem {f : List Char → List Char}
    (hf : ∀ c cs, c ≠ '%' → f (c :: cs) = c :: f cs) {u : List Char} (hu : '%' ∉ u)
    (w : List Char) : f (u ++ w) = u ++ f w := by
  induction u with
  | nil => rfl
  | cons c u ih =>
    have hc : c ≠ '%' := fun h => hu (h ▸ List.mem_cons_self)
    rw [List.cons_append, hf c _ hc, ih (fun h => hu (List.mem_cons_of_mem c h)),
      List.cons_append]

-- ============================================================================
-- One pass
-- ============================================================================

section Pass

variable {k v : List Char}

theorem replaceAll_nil : replaceAll (placeholder k) v [] = [] := by
  simp [replaceAll, placeholder]

theorem replaceAll_of_isPrefix {t : List Char} (h : placeholder k <+: t) :
    replaceAll (placeholder k) v t =
      v ++ replaceAll (placeholder k) v (t.drop (placeholder k).length) := by
  obtain ⟨w, rfl⟩ := h
  rw [placeholder, List.cons_append, replaceAll]
  simp

theorem replaceAll_cons_of_not_isPrefix {c : Char} {cs : List Char}
    (h : ¬ placeholder k <+: c :: cs) :
    replaceAll (placeholder k) v (c :: cs) = c :: replaceAll (placeholder k) v cs := by
  have hb : (placeholder k).isPrefixOf (c :: cs) = false := by
    rw [← Bool.not_eq_true, List.isPrefixOf_iff_prefix]
    exact h
  have he : (placeholder k).isEmpty = false := rfl
  rw [replaceAll]
  simp only [he, hb, Bool.false_eq_true, if_false]

/-- A pass copies a text without `%` and goes on after it. -/
theorem replaceAll_append_of_not_mem {u : List Char} (hu : '%' ∉ u) (w : List Char) :
    replaceAll (placeholder k) v (u ++ w) = u ++ replaceAll (placeholder k) v w :=
  copies_append_of_not_mem
    (fun _ _ hc => replaceAll_cons_of_not_isPrefix (not_prefix_of_ne_percent hc _)) hu w

/-- A pass copies the pattern of another variable. -/
theorem replaceAll_other_placeholder {x : List Char} (hk : ')' ∉ k) (hx : PlainKey x)
    (hkx : k ≠ x) (w : List Char) :
    replaceAll (placeholder k) v (placeholder x ++ w) =
      placeholder x ++ replaceAll (placeholder k) v w := by
  have hnp : ¬ placeholder k <+: '%' :: ('(' :: (x ++ [')', 's']) ++ w) :=
    fun h => hkx ((placeholder_prefix_iff hk hx.2 w).mp h)
  show replaceAll (placeholder k) v ('%' :: ('(' :: (x ++ [')', 's']) ++ w)) = _
  rw [replaceAll_cons_of_not_isPrefix hnp, replaceAll_append_of_not_mem (percent_not_mem_inner hx)]
  rfl

/-- A pass copies a pattern that a `(` opens after a `%`, when its name is plain. -/
theorem replaceAll_opened_pattern {x : List Char} (hx : PlainKey x) (w : List Char) :
    replaceAll (placeholder k) v ('(' :: (x ++ ')' :: 's' :: w)) =
      '(' :: (x ++ ')' :: 's' :: replaceAll (placeholder k) v w) := by
  have h := replaceAll_append_of_not_mem (k := k) (v := v) (percent_not_mem_inner hx) w
  simpa using h

end Pass

-- ============================================================================
-- The scan
-- ============================================================================

section Scan

variable {vars : List (List Char × List Char)}

@[simp] theorem fillOnce_nil : fillOnce vars [] = [] := by
  rw [fillOnce]

theorem fillOnce_of_find?_some {t : List Char} {kv : List Char × List Char} (ht : t ≠ [])
    (h : vars.find? (fun kv => (placeholder kv.1).isPrefixOf t) = some kv) :
    fillOnce vars t = kv.2 ++ fillOnce vars (t.drop (placeholder kv.1).length) := by
  cases t with
  | nil => exact absurd rfl ht
  | cons c cs => rw [fillOnce, h]

theorem fillOnce_of_find?_none {c : Char} {cs : List Char}
    (h : vars.find? (fun kv => (placeholder kv.1).isPrefixOf (c :: cs)) = none) :
    fillOnce vars (c :: cs) = c :: fillOnce vars cs := by
  rw [fillOnce, h]

/-- No pattern begins where no variable's pattern does. -/
theorem find?_eq_none_of_not_isPrefix {t : List Char} (h : ∀ kv ∈ vars, ¬ placeholder kv.1 <+: t) :
    vars.find? (fun kv => (placeholder kv.1).isPrefixOf t) = none := by
  rw [List.find?_eq_none]
  intro kv hkv
  simpa using h kv hkv

/-- The scan copies a text without `%` and goes on after it. -/
theorem fillOnce_append_of_not_mem {u : List Char} (hu : '%' ∉ u) (w : List Char) :
    fillOnce vars (u ++ w) = u ++ fillOnce vars w :=
  copies_append_of_not_mem (fun _ _ hc => fillOnce_of_find?_none
    (find?_eq_none_of_not_isPrefix fun _ _ => not_prefix_of_ne_percent hc _)) hu w

/-- Where a pattern stands, the scan finds its variable by name. -/
theorem find?_placeholder_append (hvars : ∀ kv ∈ vars, ')' ∉ kv.1) {x : List Char}
    (hx : ')' ∉ x) (w : List Char) :
    vars.find? (fun kv => (placeholder kv.1).isPrefixOf (placeholder x ++ w)) =
      vars.find? (fun kv => kv.1 == x) := by
  induction vars with
  | nil => rfl
  | cons kv vars ih =>
    have hkv : (placeholder kv.1).isPrefixOf (placeholder x ++ w) = (kv.1 == x) := by
      rw [Bool.eq_iff_iff, List.isPrefixOf_iff_prefix, beq_iff_eq]
      exact placeholder_prefix_iff (hvars kv List.mem_cons_self) hx w
    rw [List.find?_cons, List.find?_cons, hkv,
      ih (fun kv' h => hvars kv' (List.mem_cons_of_mem _ h))]

/-- The scan replaces a pattern by the value of the first variable of its name. -/
theorem fillOnce_placeholder_append (hvars : ∀ kv ∈ vars, ')' ∉ kv.1) {x : List Char}
    (hx : ')' ∉ x) {kv : List Char × List Char} (h : vars.find? (fun kv => kv.1 == x) = some kv)
    (w : List Char) : fillOnce vars (placeholder x ++ w) = kv.2 ++ fillOnce vars w := by
  have hkx : kv.1 = x := by simpa using List.find?_some h
  rw [fillOnce_of_find?_some (by simp [placeholder])
    ((find?_placeholder_append hvars hx w).trans h), hkx, List.drop_left]

end Scan

-- ============================================================================
-- Guarded templates
-- ============================================================================

section Guarded

variable {keys : List (List Char)}

theorem guarded_cons (c : Char) (cs : List Char) :
    guarded keys (c :: cs) = true ↔
      (c = '%' → safeAfterPercent keys cs = true) ∧ guarded keys cs = true := by
  by_cases hc : c = '%' <;> simp [guarded, hc]

theorem safeAfterPercent_iff (cs : List Char) :
    safeAfterPercent keys cs = true ↔
      opensPattern cs = true ∧ ∀ k ∈ keys, ¬ placeholder k <+: cs := by
  simp [safeAfterPercent]

/-- Text without `%` neither guards nor breaks what follows it. -/
theorem guarded_append_of_not_mem {u : List Char} (hu : '%' ∉ u) (w : List Char) :
    guarded keys (u ++ w) = guarded keys w := by
  induction u with
  | nil => rfl
  | cons c u ih =>
    have hc : c ≠ '%' := fun h => hu (h ▸ List.mem_cons_self)
    rw [List.cons_append, guarded, ih (fun h => hu (List.mem_cons_of_mem c h))]
    simp [hc]

theorem guarded_drop {t : List Char} (ht : guarded keys t = true) (n : Nat) :
    guarded keys (t.drop n) = true := by
  induction t generalizing n with
  | nil => simp [guarded]
  | cons c cs ih =>
    cases n with
    | zero => exact ht
    | succ n => exact ih ((guarded_cons c cs).mp ht).2 n

variable {k v : List Char}

/-- After a pass, a `%` that began no pattern of `K` still begins none, when what follows it
opened only patterns that close and did not begin with the pass's own pattern. -/
theorem not_prefix_percent_replaceAll {K : List (List Char)} (hK : ∀ k' ∈ K, ')' ∉ k')
    {ds : List Char} (hopen : opensPattern ds = true) (hnot : ¬ placeholder k <+: ds)
    (hbefore : ∀ k' ∈ K, ¬ placeholder k' <+: '%' :: ds) :
    ∀ k' ∈ K, ¬ placeholder k' <+: '%' :: replaceAll (placeholder k) v ds := by
  intro k' hk'
  cases ds with
  | nil =>
    rw [replaceAll_nil]
    exact not_prefix_percent_nil k'
  | cons d es =>
    by_cases hd : d = '('
    · subst hd
      -- the pattern opened here closes after a plain name, and the pass copies it
      obtain ⟨x, w, rfl, hx⟩ := (closesName_iff es).mp (by simpa [opensPattern] using hopen)
      rw [replaceAll_opened_pattern hx, ← placeholder_append]
      intro h
      have hkx := (placeholder_prefix_iff (hK k' hk') hx.2 _).mp h
      subst hkx
      exact hbefore k' hk' (by rw [← placeholder_append]; exact List.prefix_append _ _)
    · rw [replaceAll_cons_of_not_isPrefix hnot]
      exact not_prefix_of_ne_paren hd _

variable (hkeys : ∀ k ∈ keys, PlainKey k) (hk : k ∈ keys)
include hkeys hk

/-- A pass keeps what may follow a `%`. -/
theorem safeAfterPercent_replaceAll {cs : List Char} (hsafe : safeAfterPercent keys cs = true)
    (hcs : guarded keys cs = true) :
    safeAfterPercent keys (replaceAll (placeholder k) v cs) = true := by
  rw [safeAfterPercent_iff] at hsafe ⊢
  obtain ⟨hopen, hnone⟩ := hsafe
  cases cs with
  | nil => simp [replaceAll_nil, opensPattern, placeholder_ne_nil]
  | cons d es =>
    by_cases hd : d = '('
    · subst hd
      obtain ⟨x, w, rfl, hx⟩ := (closesName_iff es).mp (by simpa [opensPattern] using hopen)
      rw [replaceAll_opened_pattern hx]
      refine ⟨?_, fun k' _ => not_prefix_of_ne_percent (by decide) _⟩
      simp only [opensPattern, bne_self_eq_false, Bool.false_or]
      exact (closesName_iff _).mpr ⟨x, _, rfl, hx⟩
    · rw [replaceAll_cons_of_not_isPrefix (hnone k hk)]
      refine ⟨by simp [opensPattern, hd], ?_⟩
      by_cases hdp : d = '%'
      · -- a `%` right after a `%`: what follows the second one is safe too
        subst hdp
        have hes := ((safeAfterPercent_iff es).mp (((guarded_cons '%' es).mp hcs).1 rfl))
        exact not_prefix_percent_replaceAll (fun k' h => (hkeys k' h).2) hes.1 (hes.2 k hk)
          hnone
      · exact fun k' _ => not_prefix_of_ne_percent hdp _

/-- A pass whose value holds no `%` keeps a template guarded; the induction follows the
pass. -/
theorem guarded_replaceAll (hv : '%' ∉ v) (t : List Char) (ht : guarded keys t = true) :
    guarded keys (replaceAll (placeholder k) v t) = true := by
  fun_induction replaceAll (placeholder k) v t with
  | case1 hempty | case3 _ _ hempty => simp [placeholder] at hempty
  | case2 => exact ht
  | case4 c cs _ _ ih =>
    -- the pattern is replaced by a value without `%`, and the pass goes on after it
    rw [guarded_append_of_not_mem hv]
    exact ih (guarded_drop ht _)
  | case5 c cs _ _ ih =>
    obtain ⟨hsafe, hcs⟩ := (guarded_cons c cs).mp ht
    exact (guarded_cons c _).mpr
      ⟨fun hc => safeAfterPercent_replaceAll hkeys hk (hsafe hc) hcs, ih hcs⟩

/-- A pass for one variable whose value holds no `%`, then the scan for the other variables, is
the scan for all of them on a guarded template; the induction follows the scan. -/
theorem fillOnce_cons (hv : '%' ∉ v) {rest : List (List Char × List Char)}
    (hrest : ∀ kv ∈ rest, kv.1 ∈ keys) (t : List Char) (ht : guarded keys t = true) :
    fillOnce ((k, v) :: rest) t = fillOnce rest (replaceAll (placeholder k) v t) := by
  have hplain : ∀ kv ∈ rest, PlainKey kv.1 := fun kv h => hkeys _ (hrest kv h)
  fun_induction fillOnce ((k, v) :: rest) t with
  | case1 => simp [replaceAll_nil]
  | case2 c cs kv hfind ih =>
    have hdrop := ih (guarded_drop ht _)
    cases hP : (placeholder k).isPrefixOf (c :: cs)
    · -- another variable's pattern begins here: the pass copies it and the scan replaces it
      simp only [List.find?_cons, hP] at hfind
      have hkv : placeholder kv.1 <+: c :: cs := by simpa using List.find?_some hfind
      have hkx : k ≠ kv.1 := by
        rintro rfl
        rw [← Bool.not_eq_true, List.isPrefixOf_iff_prefix] at hP
        exact hP hkv
      obtain ⟨w, hw⟩ := hkv
      have hpk := hplain kv (List.mem_of_find?_eq_some hfind)
      have hname : rest.find? (fun kv' => kv'.1 == kv.1) = some kv := by
        rw [← find?_placeholder_append (fun kv' h => (hplain kv' h).2) hpk.2 w, hw]
        exact hfind
      rw [← hw, List.drop_left] at hdrop ⊢
      rw [replaceAll_other_placeholder (hkeys k hk).2 hpk hkx,
        fillOnce_placeholder_append (fun kv' h => (hplain kv' h).2) hpk.2 hname, hdrop]
    · -- this variable's pattern begins here: both replace it by the value
      simp only [List.find?_cons, hP, Option.some.injEq] at hfind
      subst hfind
      rw [replaceAll_of_isPrefix (by simpa using hP), fillOnce_append_of_not_mem hv, hdrop]
  | case3 c cs hfind ih =>
    -- no variable's pattern begins here, and after the pass none does either
    obtain ⟨hsafe, hcs⟩ := (guarded_cons c cs).mp ht
    have hnone : ∀ kv ∈ (k, v) :: rest, ¬ placeholder kv.1 <+: c :: cs := by
      intro kv hkv h
      have := List.find?_eq_none.mp hfind kv hkv
      simp_all
    rw [replaceAll_cons_of_not_isPrefix (hnone (k, v) List.mem_cons_self),
      fillOnce_of_find?_none (find?_eq_none_of_not_isPrefix ?_), ih hcs]
    intro kv hkv
    by_cases hc : c = '%'
    · subst hc
      have hs := (safeAfterPercent_iff cs).mp (hsafe rfl)
      exact not_prefix_percent_replaceAll (K := rest.map Prod.fst)
        (fun k' h => by
          obtain ⟨kv', hkv', rfl⟩ := List.mem_map.mp h
          exact (hplain kv' hkv').2)
        hs.1 (hs.2 k hk)
        (fun k' h => by
          obtain ⟨kv', hkv', rfl⟩ := List.mem_map.mp h
          exact hnone kv' (List.mem_cons_of_mem _ hkv'))
        kv.1 (List.mem_map_of_mem hkv)
    · exact not_prefix_of_ne_percent hc _

end Guarded

-- ============================================================================
-- The passes and the scan
-- ============================================================================

/-- With no variables the scan copies the template. -/
theorem fillOnce_no_vars (t : List Char) : fillOnce [] t = t := by
  induction t with
  | nil => exact fillOnce_nil
  | cons c cs ih => rw [fillOnce_of_find?_none rfl, ih]

/-- The scan for one variable is its pass. -/
theorem fillOnce_single (k v t : List Char) :
    fillOnce [(k, v)] t = replaceAll (placeholder k) v t := by
  fun_induction fillOnce [(k, v)] t with
  | case1 => simp [replaceAll_nil]
  | case2 c cs kv hfind ih =>
    cases hP : (placeholder k).isPrefixOf (c :: cs)
    · simp [hP] at hfind
    · simp only [List.find?_cons, hP, Option.some.injEq] at hfind
      subst hfind
      rw [replaceAll_of_isPrefix (by simpa using hP), ih]
  | case3 c cs hfind ih =>
    have hP : ¬ placeholder k <+: c :: cs := by simpa using hfind
    rw [replaceAll_cons_of_not_isPrefix hP, ih]

/-- The passes for the variables, one after another, are the single scan on a guarded template
when no value but the last holds `%`; the induction is on the variables. -/
theorem fillOnce_eq_passes {keys : List (List Char)} (hkeys : ∀ k ∈ keys, PlainKey k)
    (vars : List (List Char × List Char)) (hvars : ∀ kv ∈ vars, kv.1 ∈ keys)
    (hvals : ∀ kv ∈ vars.dropLast, '%' ∉ kv.2) (t : List Char) (ht : guarded keys t = true) :
    fillOnce vars t = vars.foldl (fun s kv => replaceAll (placeholder kv.1) kv.2 s) t := by
  induction vars generalizing t with
  | nil => exact fillOnce_no_vars t
  | cons kv rest ih =>
    obtain ⟨k, v⟩ := kv
    cases rest with
    | nil => exact fillOnce_single k v t
    | cons kv' rest' =>
      have hk : k ∈ keys := hvars (k, v) List.mem_cons_self
      have hv : '%' ∉ v := hvals (k, v) (by simp)
      have hlater : ∀ kv ∈ (kv' :: rest').dropLast, '%' ∉ kv.2 := fun kv h =>
        hvals kv (by rw [List.dropLast_cons_cons]; exact List.mem_cons_of_mem _ h)
      rw [fillOnce_cons hkeys hk hv (fun kv h => hvars kv (List.mem_cons_of_mem _ h)) t ht,
        List.foldl_cons]
      exact ih (fun kv h => hvars kv (List.mem_cons_of_mem _ h)) hlater _
        (guarded_replaceAll hkeys hk hv t ht)

end Template

-- ============================================================================
-- The recipe's variables
-- ============================================================================

namespace Recipe

open Template

/-- The names of the recipe's variables, in the order substitution takes them. -/
def variableNames : List (List Char) :=
  ["name".toList, "version".toList, "url".toList, "build_folder".toList, "package_folder".toList]

/-- The recipe's variables with their values for a build folder and a package folder. -/
def bindings (r : Recipe) (buildFolder packageFolder : String) : List (List Char × List Char) :=
  [("name".toList, r.package.name.toList), ("version".toList, r.package.version.toList),
    ("url".toList, r.package.url.toList), ("build_folder".toList, buildFolder.toList),
    ("package_folder".toList, packageFolder.toList)]

/-- The template with the pattern of every variable replaced in one scan. -/
def fillVariables (r : Recipe) (template buildFolder packageFolder : String) : String :=
  String.ofList (fillOnce (r.bindings buildFolder packageFolder) template.toList)

theorem plainKey_variableNames : ∀ k ∈ variableNames, PlainKey k := by
  decide

/-- Substitution is the passes for the recipe's variables, in their order. -/
theorem substitute_eq_passes (r : Recipe) (template buildFolder packageFolder : String) :
    r.substitute template buildFolder packageFolder =
      String.ofList ((r.bindings buildFolder packageFolder).foldl
        (fun s kv => Text.replaceAll (placeholder kv.1) kv.2 s) template.toList) := by
  simp only [substitute, Text.replaceText, String.toList_ofList, bindings, List.foldl]
  rfl

/-- On a guarded template, with no `%` in the name, the version, the url or the build folder,
substitution is the single scan that replaces each variable's pattern where the template has it
and copies everything else, unknown patterns and the inserted values included. -/
theorem substitute_eq_fillVariables (r : Recipe) (template buildFolder packageFolder : String)
    (hvals : ∀ v ∈ [r.package.name, r.package.version, r.package.url, buildFolder],
      '%' ∉ v.toList)
    (ht : guarded variableNames template.toList = true) :
    r.substitute template buildFolder packageFolder =
      r.fillVariables template buildFolder packageFolder := by
  rw [substitute_eq_passes, fillVariables,
    fillOnce_eq_passes plainKey_variableNames _ ?_ ?_ _ ht]
  · simp [bindings, variableNames]
  · -- the values read again by later passes are the first four
    intro kv hkv
    simp only [bindings, List.dropLast_cons_cons, List.dropLast_singleton, List.mem_cons,
      List.not_mem_nil, or_false] at hkv
    rcases hkv with rfl | rfl | rfl | rfl <;> simp_all

/-- The release `fossil_media 0.1.1`. -/
def fossilMedia : Recipe :=
  { package :=
      { name := "fossil_media", version := "0.1.1",
        url := "https://github.com/fossillogic/fossil-media" } }

/-- A hook command with variables, a `%` of its own and an unknown pattern is substituted in
one scan. -/
theorem install_command_substituted_in_one_scan :
    (∀ v ∈ [fossilMedia.package.name, fossilMedia.package.version, fossilMedia.package.url,
      "/src/builddir"], '%' ∉ v.toList) ∧
    guarded variableNames
      "install -d %(package_folder)s/%(name)s-%(version)s && date +%Y %(other)s".toList = true ∧
    fossilMedia.substitute "install -d %(package_folder)s/%(name)s-%(version)s && date +%Y %(other)s"
      "/src/builddir" "/src/package" =
      fossilMedia.fillVariables
        "install -d %(package_folder)s/%(name)s-%(version)s && date +%Y %(other)s"
        "/src/builddir" "/src/package" := by
  have hvals : ∀ v ∈ [fossilMedia.package.name, fossilMedia.package.version,
      fossilMedia.package.url, "/src/builddir"], '%' ∉ v.toList := by decide +kernel
  have ht : guarded variableNames
      "install -d %(package_folder)s/%(name)s-%(version)s && date +%Y %(other)s".toList = true := by
    decide +kernel
  exact ⟨hvals, ht, substitute_eq_fillVariables _ _ _ _ hvals ht⟩

/-- A name that holds a pattern is substituted again, and so is a pattern that a name completes
with the template around it, where the single scan inserts the name as it is. -/
theorem substitute_rereads_inserted_text :
    ({ package := { name := "lib%(version)s", version := "1.0.0", url := "https://example.org/fm" } }
        : Recipe).substitute "%(name)s" "" "" = "lib1.0.0" ∧
    ({ package := { name := "lib%(version)s", version := "1.0.0", url := "https://example.org/fm" } }
        : Recipe).fillVariables "%(name)s" "" "" = "lib%(version)s" ∧
    ({ package := { name := "ver", version := "1.0.0", url := "https://example.org/fm" } }
        : Recipe).substitute "%(%(name)ssion)s" "" "" = "1.0.0" ∧
    ({ package := { name := "ver", version := "1.0.0", url := "https://example.org/fm" } }
        : Recipe).fillVariables "%(%(name)ssion)s" "" "" = "%(version)s" := by
  decide +kernel

end Recipe

end BuildRecipe
