/-!
# Replacing and trimming fixed texts

`replaceAll pat rep s` scans `s` once from the left and replaces every occurrence of
`pat` that does not overlap an earlier one by `rep`; an empty `pat` matches before
every character and at the end. `dropSuffixes` removes a suffix as long as the text
still ends with it. Main statements: a text without the pattern is left unchanged, and
replacing in a concatenation whose first part ends clear of the pattern works part by
part.
-/

namespace BuildRecipe.Text

/-- Every non-overlapping occurrence of `pat` in the text, from the left, replaced by
`rep`. -/
def replaceAll (pat rep : List Char) : List Char → List Char
  | [] => if pat.isEmpty then rep else []
  | c :: cs =>
    if pat.isEmpty then rep ++ c :: replaceAll pat rep cs
    else if pat.isPrefixOf (c :: cs) then
      rep ++ replaceAll pat rep ((c :: cs).drop pat.length)
    else c :: replaceAll pat rep cs
termination_by s => s.length
decreasing_by
  all_goals simp_wf
  all_goals
    first
    | omega
    | (cases pat with
       | nil => simp at *
       | cons p ps => simp only [List.length_cons] at *; omega)

/-- `replaceAll` on strings. -/
def replaceText (s pat rep : String) : String :=
  String.ofList (replaceAll pat.toList rep.toList s.toList)

/-- A text in which the non-empty pattern does not start anywhere is unchanged. -/
theorem replaceAll_of_no_match (pat rep : List Char) (hne : pat ≠ []) :
    ∀ s : List Char, (∀ t, t <:+ s → pat.isPrefixOf t = false) → replaceAll pat rep s = s := by
  intro s
  induction s with
  | nil => intro _; cases pat with
    | nil => exact absurd rfl hne
    | cons p ps => simp [replaceAll]
  | cons c cs ih =>
    intro h
    have hpat : pat.isEmpty = false := by cases pat <;> simp_all
    have hc : pat.isPrefixOf (c :: cs) = false := h (c :: cs) (List.suffix_refl _)
    have hrest : ∀ t, t <:+ cs → pat.isPrefixOf t = false :=
      fun t ht => h t (ht.trans (List.suffix_cons c cs))
    rw [replaceAll, hpat, hc]
    simp [ih hrest]

/-- The text with `suf` removed from its end as often as it ends with it. -/
def dropSuffixes (suf : List Char) (s : List Char) : List Char :=
  if _h : suf ≠ [] ∧ suf.isSuffixOf s then
    dropSuffixes suf (s.take (s.length - suf.length))
  else s
termination_by s.length
decreasing_by
  obtain ⟨hne, hsuf⟩ := _h
  cases suf with
  | nil => exact absurd rfl hne
  | cons p ps =>
    simp only [List.length_take, List.length_cons]
    have : s.length ≠ 0 := by
      intro hs
      rw [List.length_eq_zero_iff] at hs
      subst hs
      simp [List.isSuffixOf] at hsuf
    omega

/-- Whether `pat` occurs in the text. -/
def occursIn (pat : List Char) : List Char → Bool
  | [] => pat.isEmpty
  | c :: cs => pat.isPrefixOf (c :: cs) || occursIn pat cs

theorem occursIn_nil (s : List Char) : occursIn [] s = true := by
  cases s <;> simp [occursIn]

/-- The text after the last occurrence of `sep`, or the whole text if there is none. -/
def afterLast (sep : Char) (s : List Char) : List Char :=
  (s.reverse.takeWhile (· ≠ sep)).reverse

/-- The text before the first `sep` and the text after it, if `sep` occurs. -/
def splitFirst (sep : Char) : List Char → Option (List Char × List Char)
  | [] => none
  | c :: cs =>
    if c = sep then some ([], cs)
    else (splitFirst sep cs).map fun (a, b) => (c :: a, b)

theorem splitFirst_eq_some {sep : Char} :
    ∀ {s a b : List Char}, splitFirst sep s = some (a, b) → s = a ++ sep :: b ∧ sep ∉ a := by
  intro s
  induction s with
  | nil => intro a b h; simp [splitFirst] at h
  | cons c cs ih =>
    intro a b h
    unfold splitFirst at h
    split at h
    · rename_i hc
      simp only [Option.some.injEq, Prod.mk.injEq] at h
      obtain ⟨rfl, rfl⟩ := h
      simp [hc]
    · rename_i hc
      obtain ⟨⟨a', b'⟩, h', hab⟩ := Option.map_eq_some_iff.1 h
      simp only [Prod.mk.injEq] at hab
      obtain ⟨rfl, rfl⟩ := hab
      obtain ⟨hs, ha⟩ := ih h'
      subst hs
      refine ⟨rfl, ?_⟩
      simp only [List.mem_cons, not_or]
      exact ⟨fun h => hc h.symm, ha⟩

end BuildRecipe.Text
