import BuildRecipe.FileTree.Edit
/-!
# What the edits of a file tree leave in place

A look-up after `set` at another location, or after erasing everything below a location,
finds what was there before (`get?_set_ne`, `get?_eraseBelow`). From these: making
directories and removing a directory tree create no file anywhere, so a location that
holds no file keeps holding none (`createDirAll_noFileAt`, `removeDirAll_noFileAt`).
-/

namespace BuildRecipe

namespace FileTree

-- ============================================================================
-- Look-ups after an edit
-- ============================================================================

theorem get?_set_ne (t : FileTree) {l x : Location} (n : Node) (h : x ≠ l) :
    (t.set l n).get? x = t.get? x := by
  unfold get? set
  split
  · rfl
  · split
    · -- replacing the entry at `l` changes no entry found at `x`
      have hp : ((fun e : Location × Node => e.1 == x) ∘
          fun e => if (e.1 == l) = true then (l, n) else e) = fun e => e.1 == x := by
        funext e
        by_cases he : e.1 = l
        · simp [he]
        · simp [he]
      rw [List.find?_map, hp]
      cases hf : t.entries.find? (·.1 == x) with
      | none => rfl
      | some e =>
        have hex : e.1 = x := by simpa using List.find?_some hf
        have hel : e.1 ≠ l := by rw [hex]; exact h
        simp [hel]
    · rw [List.find?_append]
      have hnone : [(l, n)].find? (·.1 == x) = none := by simp [Ne.symm h]
      simp [hnone]

theorem get?_eraseBelow (t : FileTree) (l x : Location) :
    (t.eraseBelow l).get? x = if l <+: x ∧ x ≠ [] then none else t.get? x := by
  unfold get? eraseBelow
  by_cases hx : x = []
  · simp [hx]
  · rw [if_neg hx, if_neg hx]
    by_cases hl : l <+: x
    · rw [if_pos ⟨hl, hx⟩]
      have hnone : (t.entries.filter fun e => !l.isPrefixOf e.1).find? (·.1 == x) = none := by
        rw [List.find?_eq_none]
        intro e he hex
        have hkeep := (List.mem_filter.mp he).2
        rw [beq_iff_eq.mp hex, List.isPrefixOf_iff_prefix.mpr hl] at hkeep
        exact absurd hkeep (by decide)
      rw [hnone]
      rfl
    · rw [if_neg (fun h => hl h.1), List.find?_filter]
      have hpre : l.isPrefixOf x = false := by
        rw [Bool.eq_false_iff]
        exact fun h => hl (List.isPrefixOf_iff_prefix.mp h)
      congr 2
      funext e
      by_cases he : e.1 = x
      · simp [he, hpre]
      · simp [he]

-- ============================================================================
-- Locations without a file
-- ============================================================================

/-- No file (a text or an executable) lies at a location: nothing does, or a directory. -/
def NoFileAt (t : FileTree) (x : Location) : Prop := ∀ n, t.get? x = some n → n = .directory

theorem noFileAt_set_directory {t : FileTree} {x : Location} (l : Location)
    (h : t.NoFileAt x) : (t.set l .directory).NoFileAt x := by
  intro n hn
  by_cases hxl : x = l
  · subst hxl
    by_cases hx : x = []
    · rw [hx, get?_root] at hn
      exact (Option.some.inj hn).symm
    · rw [get?_set_self t x _ hx] at hn
      exact (Option.some.inj hn).symm
  · rw [get?_set_ne t _ hxl] at hn
    exact h n hn

theorem noFileAt_eraseBelow {t : FileTree} {x : Location} (l : Location)
    (h : t.NoFileAt x) : (t.eraseBelow l).NoFileAt x := by
  intro n hn
  rw [get?_eraseBelow] at hn
  split at hn
  · cases hn
  · exact h n hn

theorem createDir_noFileAt {t t' : FileTree} {cwd : Location} {p : String} {x : Location}
    (hc : t.createDir cwd p = .ok t') (h : t.NoFileAt x) : t'.NoFileAt x := by
  unfold createDir at hc
  cases hr : t.resolve cwd p with
  | error e => simp [hr, bind, Except.bind] at hc
  | ok r =>
    simp only [hr, bind, Except.bind] at hc
    cases hg : t.get? r.location with
    | some n => simp [hg, throw, throwThe, MonadExceptOf.throw] at hc
    | none =>
      simp only [hg, pure, Except.pure, Except.ok.injEq] at hc
      subst hc
      exact noFileAt_set_directory _ h

/-- A property of trees that every successful `createDir` keeps is kept by making every
missing directory of a path; the induction follows the levels the making climbs. -/
theorem createDirAllFrom_induction (cwd : Location) (P : FileTree → Prop)
    (hP : ∀ t t' p, t.createDir cwd p = .ok t' → P t → P t') :
    ∀ (fuel : Nat) (t t' : FileTree) (p : String), createDirAllFrom cwd fuel t p = .ok t' →
      P t → P t' := by
  intro fuel t t' p hc h
  fun_induction createDirAllFrom cwd fuel t p generalizing t' with
  | case1 => cases hc; exact h
  | case2 _ _ _ _ _ hcd => cases hc; exact hP _ _ _ hcd h
  | case3 _ _ _ _ _ _ _ t1 hrec _ hcd ih => cases hc; exact hP _ _ _ hcd (ih t1 hrec h)
  | case4 _ _ _ _ _ _ _ t1 hrec _ _ _ ih => cases hc; exact ih t1 hrec h
  | case8 => cases hc; exact h
  | _ => cases hc

theorem createDirAll_noFileAt {t t' : FileTree} {cwd : Location} {p : String} {x : Location}
    (hc : t.createDirAll cwd p = .ok t') (h : t.NoFileAt x) : t'.NoFileAt x :=
  createDirAllFrom_induction cwd (·.NoFileAt x) (fun _ _ _ hcd => createDir_noFileAt hcd) _ _ _ _
    hc h

theorem removeDirAll_noFileAt {t t' : FileTree} {cwd : Location} {p : String} {x : Location}
    (hr : t.removeDirAll cwd p = .ok t') (h : t.NoFileAt x) : t'.NoFileAt x := by
  unfold removeDirAll at hr
  cases hd : t.directoryAt cwd p with
  | error e => simp [hd, bind, Except.bind] at hr
  | ok l =>
    simp only [hd, bind, Except.bind, pure, Except.pure, Except.ok.injEq] at hr
    subst hr
    exact noFileAt_eraseBelow l h

end FileTree

end BuildRecipe
