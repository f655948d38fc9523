import BuildRecipe.Path
/-!
# The directory a path denotes, and its lexical form

A path denotes a directory from a working directory (`Path.denote`): the root starts over,
`.` stays, `..` goes to the parent, the root staying at itself, and a name goes down. The
lexical form (`Path.lexical`) keeps a relative path relative and drops a `..` that climbs
above its start.

For an absolute path the two agree: the lexical form is the root followed by the names of the
directory denoted (`Path.lexical_of_isAbsolute`). A relative path's lexical form holds no
root (`Path.root_not_mem_lexical`).
-/

namespace BuildRecipe

namespace Component

/-- One component taken from a directory: the root starts over, `.` stays, `..` goes to the
parent (the root stays at itself) and a name goes down. -/
def enter (d : List String) : Component → List String
  | root => []
  | current => d
  | parent => d.dropLast
  | normal n => d ++ [n]

end Component

namespace Path

/-- The directory a path denotes from a working directory, as the names from the root. -/
def denote (cwd : List String) (s : String) : List String :=
  (components s).foldl Component.enter cwd

/-- One step of the lexical form: `.` is dropped, `..` removes a last name, anything else is
added. -/
def lexicalStep (acc : List Component) : Component → List Component
  | .current => acc
  | .parent =>
    match acc.getLast? with
    | some (.normal _) => acc.dropLast
    | _ => acc
  | other => acc ++ [other]

theorem lexical_eq_foldl (s : String) : lexical s = (components s).foldl lexicalStep [] := rfl

-- ============================================================================
-- Components of absolute and relative paths
-- ============================================================================

theorem components_of_isAbsolute {s : String} (h : isAbsolute s = true) :
    ∃ named, components s = .root :: named ∧ .root ∉ named := by
  unfold components
  simp only [isAbsolute] at h
  simp only [h, Bool.not_true, Bool.false_and, Bool.false_eq_true, ↓reduceIte,
    List.singleton_append]
  refine ⟨_, rfl, fun hm => ?_⟩
  -- a segment gives a parent, a name or nothing
  obtain ⟨seg, -, hseg⟩ := List.mem_filterMap.mp hm
  split at hseg
  · cases hseg
  · split at hseg <;> cases hseg

theorem root_not_mem_components {s : String} (h : isAbsolute s = false) :
    .root ∉ components s := by
  unfold components
  simp only [isAbsolute] at h
  simp only [h, Bool.false_eq_true, ↓reduceIte, List.nil_append, List.mem_append,
    List.mem_filterMap, not_or, not_exists, not_and]
  refine ⟨?_, fun seg _ hseg => ?_⟩
  · split <;> simp
  · split at hseg
    · cases hseg
    · split at hseg <;> cases hseg

theorem isAbsolute_append {s : String} (hs : s ≠ "") (t : String) :
    isAbsolute (s ++ t) = isAbsolute s := by
  obtain ⟨c, cs, hc⟩ := List.exists_cons_of_ne_nil fun h => hs (String.toList_eq_nil_iff.mp h)
  simp [isAbsolute, String.toList_append, hc]

/-- A joined path is absolute when either part is. -/
theorem isAbsolute_join (base rel : String) :
    isAbsolute (join base rel) = (isAbsolute base || isAbsolute rel) := by
  unfold join
  by_cases hr : isAbsolute rel = true
  · rw [if_pos hr, hr, Bool.or_true]
  · rw [if_neg hr, Bool.eq_false_iff.mpr hr, Bool.or_false]
    by_cases hb : base = ""
    · subst hb
      rw [String.empty_append]
      exact Bool.eq_false_iff.mpr hr
    · split
      · exact isAbsolute_append hb rel
      · rw [String.append_assoc]
        exact isAbsolute_append hb _

theorem components_slash : components "/" = [.root] := by
  decide

theorem denote_slash (cwd : List String) : denote cwd "/" = [] := by
  rw [denote, components_slash]
  rfl

theorem lexical_slash : lexical "/" = [.root] := by
  rw [lexical_eq_foldl, components_slash]
  rfl

-- ============================================================================
-- Lexical forms against denoted directories
-- ============================================================================

/-- Below the root, a lexical step is the step of the denoted directory. -/
theorem lexicalStep_enter (d : List String) {c : Component} (hc : c ≠ .root) :
    lexicalStep (.root :: d.map .normal) c = .root :: (Component.enter d c).map .normal := by
  cases c with
  | root => exact absurd rfl hc
  | current => rfl
  | parent =>
    -- `..` at the root stays there; below it, it drops the last name
    rcases List.eq_nil_or_concat d with rfl | ⟨d', n, rfl⟩
    · rfl
    · rw [List.concat_eq_append]
      simp only [lexicalStep, Component.enter, List.map_append, List.map_cons, List.map_nil,
        ← List.cons_append, List.getLast?_concat, List.dropLast_concat]
  | normal n => simp [lexicalStep, Component.enter]

/-- Below the root, the lexical form follows the denoted directory over any components that
do not start over. -/
theorem foldl_lexicalStep (named : List Component) (h : .root ∉ named) (d : List String) :
    named.foldl lexicalStep (.root :: d.map .normal) =
      .root :: (named.foldl Component.enter d).map .normal := by
  induction named generalizing d with
  | nil => rfl
  | cons c rest ih =>
    rw [List.mem_cons, not_or] at h
    rw [List.foldl_cons, List.foldl_cons, lexicalStep_enter d (Ne.symm h.1)]
    exact ih h.2 _

/-- The lexical form of an absolute path is the root and the names of the directory it denotes. -/
theorem lexical_of_isAbsolute {s : String} (h : isAbsolute s = true) (cwd : List String) :
    lexical s = .root :: (denote cwd s).map .normal := by
  obtain ⟨named, hs, hn⟩ := components_of_isAbsolute h
  rw [lexical_eq_foldl, denote, hs, List.foldl_cons, List.foldl_cons]
  exact foldl_lexicalStep named hn []

/-- A lexical step keeps what it had, less a last name, and adds the component it takes. -/
theorem mem_lexicalStep {acc : List Component} {c x : Component} (hx : x ∈ lexicalStep acc c) :
    x ∈ acc ∨ x = c := by
  cases c with
  | current => exact .inl hx
  | parent =>
    simp only [lexicalStep] at hx
    split at hx
    · exact .inl (List.dropLast_subset _ hx)
    · exact .inl hx
  | root => simpa [lexicalStep] using hx
  | normal n => simpa [lexicalStep] using hx

theorem mem_foldl_lexicalStep {l acc : List Component} {x : Component}
    (hx : x ∈ l.foldl lexicalStep acc) : x ∈ acc ∨ x ∈ l := by
  induction l generalizing acc with
  | nil => exact .inl hx
  | cons c rest ih =>
    rcases ih hx with h | h
    · rcases mem_lexicalStep h with h | rfl
      · exact .inl h
      · exact .inr (List.mem_cons_self ..)
    · exact .inr (List.mem_cons_of_mem c h)
/-- The lexical form of a relative path holds no root. -/
theorem root_not_mem_lexical {s : String} (h : isAbsolute s = false) : .root ∉ lexical s := by
  intro hm
  rw [lexical_eq_foldl] at hm
  rcases mem_foldl_lexicalStep hm with hm | hm
  · cases hm
  · exact root_not_mem_components h hm

end Path

end BuildRecipe
