import BuildRecipe.Proofs.Path.Canonical
/-!
# Making the folders of a path, and copying a file into them

A path is resolved by standing at one location after another: where it starts, then where
each component leads, the root starting over (`FileTree.stops`). Every component but the
root is taken at a directory, so resolution succeeds exactly when every stop before the last
is a directory (`descend_eq_ok_iff`); when no stop holds a file it can only fail for a
missing folder (`descend_of_noFileAt`).

Making every folder of a path (`createDirAll`) tries the path, then its parent, then the
path again. When the working directory is a directory and no stop of the path holds a file,
it succeeds, every stop is then a directory, and nothing else changed
(`createDirAll_stops`). What it changes it changes by adding a directory at a stop that held
nothing (`createDirAll_induction`), so with every stop a directory already it changes
nothing.

Main statements: `createDirAll_stops`, `createDirAll_induction`, and `copyFile_of_resolve`,
which sets the target to the source's node when both paths resolve, the source is not a
directory, the target is not one, and the two are apart.
-/

namespace BuildRecipe

namespace FileTree

variable {t : FileTree}

-- ============================================================================
-- Where a resolution stands
-- ============================================================================

/-- The locations a resolution of components stands at, from where it starts to where it
ends; the root starts over. -/
def stops : Location → List Component → List Location
  | here, [] => [here]
  | _, .root :: rest => stops [] rest
  | here, c :: rest => here :: stops (c.enter here) rest

@[simp] theorem stops_nil (here : Location) : stops here [] = [here] := by
  simp [stops]

theorem stops_cons_of_ne_root (here : Location) {c : Component} (hc : c ≠ .root)
    (rest : List Component) : stops here (c :: rest) = here :: stops (c.enter here) rest := by
  cases c with
  | root => exact absurd rfl hc
  | current | parent | normal _ => rfl

theorem stops_ne_nil (here : Location) (cs : List Component) : stops here cs ≠ [] := by
  induction cs generalizing here with
  | nil => simp
  | cons c rest ih =>
    cases c with
    | root => exact ih []
    | current | parent | normal _ => simp [stops]

/-- A resolution ends where the components lead. -/
theorem getLast?_stops (here : Location) (cs : List Component) :
    (stops here cs).getLast? = some (cs.foldl Component.enter here) := by
  induction cs generalizing here with
  | nil => simp
  | cons c rest ih =>
    cases c with
    | root => exact ih []
    | current | parent | normal _ =>
      rw [stops_cons_of_ne_root _ (by simp), List.getLast?_cons, ih]
      rfl

theorem stops_eq_dropLast_append (here : Location) (cs : List Component) :
    stops here cs = (stops here cs).dropLast ++ [cs.foldl Component.enter here] := by
  have hne := stops_ne_nil here cs
  have hl : (stops here cs).getLast hne = cs.foldl Component.enter here := by
    have h := getLast?_stops here cs
    rw [List.getLast?_eq_some_getLast hne] at h
    exact Option.some.inj h
  conv_lhs => rw [← List.dropLast_concat_getLast hne]
  rw [hl]

theorem end_mem_stops (here : Location) (cs : List Component) :
    cs.foldl Component.enter here ∈ stops here cs :=
  List.mem_of_getLast? (getLast?_stops here cs)

/-- Components taken after others go on from where the first ones end. -/
theorem stops_append (here : Location) (cs ds : List Component) :
    stops here (cs ++ ds) = (stops here cs).dropLast ++ stops (cs.foldl Component.enter here) ds := by
  induction cs generalizing here with
  | nil => simp
  | cons c rest ih =>
    cases c with
    | root => exact ih []
    | current | parent | normal _ =>
      rw [List.cons_append, stops_cons_of_ne_root _ (by simp), stops_cons_of_ne_root _ (by simp),
        ih, List.dropLast_cons_of_ne_nil (stops_ne_nil _ _)]
      rfl

/-- One more component, other than the root, adds one stop. -/
theorem stops_append_single (here : Location) (cs : List Component) {c : Component}
    (hc : c ≠ .root) :
    stops here (cs ++ [c]) = stops here cs ++ [c.enter (cs.foldl Component.enter here)] := by
  rw [stops_append, stops_cons_of_ne_root _ hc, stops_nil]
  conv_rhs => rw [stops_eq_dropLast_append here cs]
  simp

-- ============================================================================
-- Resolution along the stops
-- ============================================================================

/-- Resolution succeeds exactly when it stands at a directory before each component. -/
theorem descend_eq_ok_iff {here l : Location} {cs : List Component} :
    t.descend here cs = .ok l ↔
      (∀ x ∈ (stops here cs).dropLast, t.get? x = some .directory) ∧
        l = cs.foldl Component.enter here := by
  induction cs generalizing here with
  | nil => simp [descend, eq_comm]
  | cons c rest ih =>
    cases c with
    | root => exact ih
    | current | parent | normal _ =>
      rw [stops_cons_of_ne_root _ (by simp), List.dropLast_cons_of_ne_nil (stops_ne_nil _ _),
        List.forall_mem_cons, List.foldl_cons, and_assoc, ← ih]
      -- the component is taken at the directory the resolution stands at
      rcases hg : t.get? here with _ | _ | _ | _ <;> simp [descend, hg, Component.enter]

/-- When no stop holds a file, resolution reaches its end or finds a folder missing. -/
theorem descend_of_noFileAt {here : Location} {cs : List Component}
    (h : ∀ x ∈ (stops here cs).dropLast, t.NoFileAt x) :
    t.descend here cs = .ok (cs.foldl Component.enter here) ∨
      t.descend here cs = .error .notFound := by
  induction cs generalizing here with
  | nil => exact .inl rfl
  | cons c rest ih =>
    cases c with
    | root => exact ih h
    | current | parent | normal _ =>
      rw [stops_cons_of_ne_root _ (by simp), List.dropLast_cons_of_ne_nil (stops_ne_nil _ _),
        List.forall_mem_cons] at h
      rcases noFileAt_iff.mp h.1 with hg | hg
      · exact .inr (by simp [descend, hg])
      · have hrest := ih h.2
        simp only [descend, hg, List.foldl_cons]
        exact hrest

-- ============================================================================
-- Making one folder
-- ============================================================================

theorem ne_empty_of_components_ne_nil {p : String} (h : Path.components p ≠ []) : p ≠ "" := by
  rintro rfl
  exact h (by decide)

theorem createDir_of_descend_error {cwd : Location} {p : String} (hp : p ≠ "") {e : IoFault}
    (hd : t.descend cwd (Path.components p) = .error e) : t.createDir cwd p = .error e := by
  simp [createDir, resolve, hp, hd, bind, Except.bind]

theorem createDir_of_descend_none {cwd L : Location} {p : String} (hp : p ≠ "")
    (hd : t.descend cwd (Path.components p) = .ok L) (hL : t.get? L = none) :
    t.createDir cwd p = .ok (t.set L .directory) := by
  simp [createDir, resolve, hp, hd, hL, bind, Except.bind, pure, Except.pure]

theorem createDir_of_descend_some {cwd L : Location} {p : String} (hp : p ≠ "") {n : Node}
    (hd : t.descend cwd (Path.components p) = .ok L) (hL : t.get? L = some n) :
    t.createDir cwd p = .error .alreadyExists := by
  simp [createDir, resolve, hp, hd, hL, bind, Except.bind, throw, throwThe, MonadExceptOf.throw]

theorem isDir_of_descend {cwd L : Location} {p : String} (hp : p ≠ "")
    (hd : t.descend cwd (Path.components p) = .ok L) (hL : t.get? L = some .directory) :
    t.isDir cwd p = true := by
  simp [isDir, metadata, resolve, hp, hd, hL, bind, Except.bind, pure, Except.pure,
    Node.isDirectory]

/-- A folder that is made was made where its path ends, where nothing was. -/
theorem createDir_ok {cwd : Location} {p : String} {t' : FileTree}
    (h : t.createDir cwd p = .ok t') :
    t.get? (Path.denote cwd p) = none ∧ t' = t.set (Path.denote cwd p) .directory := by
  unfold createDir at h
  cases hr : t.resolve cwd p with
  | error e => simp [hr, bind, Except.bind] at h
  | ok r =>
    rw [← (resolve_location hr).2]
    simp only [hr, bind, Except.bind] at h
    cases hg : t.get? r.location with
    | some n => simp [hg, throw, throwThe, MonadExceptOf.throw] at h
    | none =>
      simp only [hg, pure, Except.pure, Except.ok.injEq] at h
      exact ⟨rfl, h.symm⟩

/-- Every stop is a directory when those before the end are and the end is. -/
theorem stops_dirs_of_end {here : Location} {cs : List Component}
    (hdirs : ∀ x ∈ (stops here cs).dropLast, t.get? x = some .directory)
    (hend : t.get? (cs.foldl Component.enter here) = some .directory) :
    ∀ x ∈ stops here cs, t.get? x = some .directory := by
  intro x hx
  rw [stops_eq_dropLast_append] at hx
  rcases List.mem_append.mp hx with hx | hx
  · exact hdirs x hx
  · rw [List.mem_singleton.mp hx]
    exact hend

-- ============================================================================
-- Making every folder of a path
-- ============================================================================

/-- The stops of a path's parent are stops of the path. -/
theorem stops_parent?_subset (cwd : Location) {p q : String} (h : Path.parent? p = some q) :
    ∀ x ∈ stops cwd (Path.components q), x ∈ stops cwd (Path.components p) := by
  intro x hx
  obtain ⟨c, hc, hK⟩ := Path.components_eq_parent?_append h
  rw [hK, stops_append_single _ _ hc]
  exact List.mem_append_left _ hx

/-- With every stop before its end a directory and no file at the end, the path's folder is
made where nothing was, or is found there already. -/
theorem createDir_end {cwd : Location} {p : String} (hp : p ≠ "")
    (hdirs : ∀ x ∈ (stops cwd (Path.components p)).dropLast, t.get? x = some .directory)
    (hend : t.NoFileAt ((Path.components p).foldl Component.enter cwd)) :
    (t.createDir cwd p =
        .ok (t.set ((Path.components p).foldl Component.enter cwd) .directory) ∧
      t.get? ((Path.components p).foldl Component.enter cwd) = none) ∨
    (t.createDir cwd p = .error .alreadyExists ∧ t.isDir cwd p = true ∧
      t.get? ((Path.components p).foldl Component.enter cwd) = some .directory) := by
  have hd := descend_eq_ok_iff.mpr ⟨hdirs, rfl⟩
  rcases noFileAt_iff.mp hend with hnone | hdir
  · exact .inl ⟨createDir_of_descend_none hp hd hnone, hnone⟩
  · exact .inr ⟨createDir_of_descend_some hp hd hdir, isDir_of_descend hp hd hdir, hdir⟩

/-- A directory set at the end of a path whose other stops are directories makes every stop a
directory. -/
theorem stops_set_end {here : Location} {cs : List Component}
    (hdirs : ∀ x ∈ (stops here cs).dropLast, t.get? x = some .directory)
    (hnone : t.get? (cs.foldl Component.enter here) = none) :
    ∀ x ∈ stops here cs, (t.set (cs.foldl Component.enter here) .directory).get? x =
      some .directory := by
  intro x hx
  rw [stops_eq_dropLast_append] at hx
  rcases List.mem_append.mp hx with hx | hx
  · have hne : x ≠ cs.foldl Component.enter here := by
      rintro rfl
      rw [hdirs _ hx] at hnone
      cases hnone
    rw [get?_set_ne t _ hne]
    exact hdirs x hx
  · rw [List.mem_singleton.mp hx]
    have hne : cs.foldl Component.enter here ≠ [] := by
      intro h
      rw [h, get?_root] at hnone
      cases hnone
    exact get?_set_self t _ _ hne

/-- With the working directory a directory and no file at any stop, making every folder of a
path succeeds: every stop is then a directory, and nothing else changed. The induction is on
the levels the making may climb. -/
theorem createDirAllFrom_stops {cwd : Location} :
    ∀ (fuel : Nat) (t : FileTree) (p : String), (Path.components p).length ≤ fuel →
      t.get? cwd = some .directory →
      (∀ x ∈ stops cwd (Path.components p), t.NoFileAt x) →
      ∃ t', createDirAllFrom cwd fuel t p = .ok t' ∧
        (∀ x ∈ stops cwd (Path.components p), t'.get? x = some .directory) ∧
        (∀ y, y ∉ stops cwd (Path.components p) → t'.get? y = t.get? y) := by
  intro fuel
  induction fuel with
  | zero =>
    intro t p hlen hcwd _
    have hK : Path.components p = [] := List.eq_nil_of_length_eq_zero (by omega)
    refine ⟨t, by unfold createDirAllFrom; rw [if_pos hK], ?_, fun _ _ => rfl⟩
    rw [hK]
    simpa using hcwd
  | succ fuel ih =>
    intro t p hlen hcwd hclear
    by_cases hK : Path.components p = []
    · refine ⟨t, by unfold createDirAllFrom; rw [if_pos hK], ?_, fun _ _ => rfl⟩
      rw [hK]
      simpa using hcwd
    have hp := ne_empty_of_components_ne_nil hK
    have hLmem := end_mem_stops cwd (Path.components p)
    have hbefore : ∀ x ∈ (stops cwd (Path.components p)).dropLast, t.NoFileAt x :=
      fun x hx => hclear x (List.dropLast_subset _ hx)
    rcases descend_of_noFileAt hbefore with hd | hd
    · -- every folder above the path is there: the path is made, or is a directory already
      obtain ⟨hdirs, -⟩ := descend_eq_ok_iff.mp hd
      rcases createDir_end hp hdirs (hclear _ hLmem) with ⟨hcd, hnone⟩ | ⟨hcd, hisdir, hdir⟩
      · refine ⟨_, by unfold createDirAllFrom; rw [if_neg hK, hcd], stops_set_end hdirs hnone,
          fun y hy => get?_set_ne t _ fun h => hy (by rw [h]; exact hLmem)⟩
      · exact ⟨t, by unfold createDirAllFrom; rw [if_neg hK, hcd]; simp [hisdir],
          stops_dirs_of_end hdirs hdir, fun _ _ => rfl⟩
    · -- a folder is missing: the parent's folders are made first, then the path
      have hroot : Path.components p ≠ [.root] := by
        intro h
        rw [h] at hd
        cases hd
      obtain ⟨q, hq⟩ := Path.parent?_isSome hK hroot
      obtain ⟨c, hc, hKq⟩ := Path.components_eq_parent?_append hq
      have hsub := stops_parent?_subset cwd hq
      obtain ⟨t1, h1, hdirs1, hsame1⟩ := ih t q
        (by rw [hKq, List.length_append, List.length_singleton] at hlen; omega) hcwd
        fun x hx => hclear x (hsub x hx)
      have hstops : stops cwd (Path.components p) =
          stops cwd (Path.components q) ++ [(Path.components p).foldl Component.enter cwd] := by
        rw [hKq, stops_append_single _ _ hc, List.foldl_append]
        rfl
      have hdrop : (stops cwd (Path.components p)).dropLast = stops cwd (Path.components q) := by
        rw [hstops, List.dropLast_concat]
      -- the end holds no file once the parent's folders are made
      have hend : t1.NoFileAt ((Path.components p).foldl Component.enter cwd) := by
        by_cases hin : (Path.components p).foldl Component.enter cwd ∈ stops cwd (Path.components q)
        · exact noFileAt_iff.mpr (.inr (hdirs1 _ hin))
        · intro n hn
          rw [hsame1 _ hin] at hn
          exact hclear _ hLmem n hn
      have hdirs1' : ∀ x ∈ (stops cwd (Path.components p)).dropLast,
          t1.get? x = some .directory := by
        rw [hdrop]
        exact hdirs1
      have hkeep : ∀ y, y ∉ stops cwd (Path.components p) → t1.get? y = t.get? y := fun y hy =>
        hsame1 y fun h => hy (hsub y h)
      rcases createDir_end hp hdirs1' hend with ⟨hcd, hnone⟩ | ⟨hcd, hisdir, hdir⟩
      · refine ⟨_, ?_, stops_set_end hdirs1' hnone, fun y hy => ?_⟩
        · unfold createDirAllFrom
          rw [if_neg hK, createDir_of_descend_error hp hd]
          simp [hq, h1, hcd]
        · rw [get?_set_ne t1 _ fun h => hy (by rw [h]; exact hLmem)]
          exact hkeep y hy
      · refine ⟨t1, ?_, stops_dirs_of_end hdirs1' hdir, hkeep⟩
        unfold createDirAllFrom
        rw [if_neg hK, createDir_of_descend_error hp hd]
        simp [hq, h1, hcd, hisdir]

theorem createDirAll_stops {cwd : Location} {p : String} (hcwd : t.get? cwd = some .directory)
    (hclear : ∀ x ∈ stops cwd (Path.components p), t.NoFileAt x) :
    ∃ t', t.createDirAll cwd p = .ok t' ∧
      (∀ x ∈ stops cwd (Path.components p), t'.get? x = some .directory) ∧
      (∀ y, y ∉ stops cwd (Path.components p) → t'.get? y = t.get? y) :=
  createDirAllFrom_stops _ t p (Nat.le_refl _) hcwd hclear

/-- What making a path's folders changes, it changes by adding a directory at a stop of the
path that held nothing. The induction follows the levels the making climbs. -/
theorem createDirAllFrom_induction_stops {cwd : Location} (P : FileTree → Prop) :
    ∀ (fuel : Nat) (t t' : FileTree) (p : String), createDirAllFrom cwd fuel t p = .ok t' →
      (∀ u x, x ∈ stops cwd (Path.components p) → u.get? x = none → P u →
        P (u.set x .directory)) → P t → P t' := by
  intro fuel t t' p hc hstep h
  fun_induction createDirAllFrom cwd fuel t p generalizing t' with
  | case1 => cases hc; exact h
  | case2 _ _ _ _ _ hcd =>
    cases hc
    obtain ⟨hnone, rfl⟩ := createDir_ok hcd
    exact hstep _ _ (end_mem_stops _ _) hnone h
  | case3 _ _ _ _ _ _ hq t1 hrec _ hcd ih =>
    cases hc
    obtain ⟨hnone, rfl⟩ := createDir_ok hcd
    have hmid := ih t1 hrec (fun u x hx => hstep u x (stops_parent?_subset cwd hq x hx)) h
    exact hstep _ _ (end_mem_stops _ _) hnone hmid
  | case4 _ _ _ _ _ _ hq t1 hrec _ _ _ ih =>
    cases hc
    exact ih t1 hrec (fun u x hx => hstep u x (stops_parent?_subset cwd hq x hx)) h
  | case8 => cases hc; exact h
  | _ => cases hc

theorem createDirAll_induction {cwd : Location} {p : String} {t' : FileTree} (P : FileTree → Prop)
    (hc : t.createDirAll cwd p = .ok t')
    (hstep : ∀ u x, x ∈ stops cwd (Path.components p) → u.get? x = none → P u →
      P (u.set x .directory)) (h : P t) : P t' :=
  createDirAllFrom_induction_stops P _ t t' p hc hstep h

/-- Making the folders of a path whose stops are all directories changes nothing. -/
theorem createDirAll_of_dirs {cwd : Location} {p : String} (hcwd : t.get? cwd = some .directory)
    (hdirs : ∀ x ∈ stops cwd (Path.components p), t.get? x = some .directory) :
    t.createDirAll cwd p = .ok t := by
  obtain ⟨t', hc, -, -⟩ := createDirAll_stops hcwd fun x hx =>
    noFileAt_iff.mpr (.inr (hdirs x hx))
  have heq : t' = t := by
    refine createDirAll_induction (· = t) hc (fun u x hx hnone hu => ?_) rfl
    rw [hu, hdirs x hx] at hnone
    cases hnone
  rw [hc, heq]

-- ============================================================================
-- Copying a file
-- ============================================================================

/-- A regular file copied to a path that resolves apart from it and holds no directory: the
target is set to the source's node. -/
theorem copyFile_of_resolve {cwd Ls Lt : Location} {src dst : String} {n : Node}
    (hs : t.resolve cwd src = .ok ⟨Ls, false⟩) (hn : t.get? Ls = some n)
    (hnd : n.isDirectory = false) (ht : t.resolve cwd dst = .ok ⟨Lt, false⟩)
    (htd : t.get? Lt ≠ some .directory) (hne : Lt ≠ Ls) :
    t.copyFile cwd src dst = .ok (t.set Lt n) := by
  have hmeta : t.metadata cwd src = .ok n := by
    simp [metadata, hs, hn, bind, Except.bind, pure, Except.pure]
  unfold copyFile
  rw [hmeta]
  cases hg : t.get? Lt with
  | none => simp [hnd, hs, ht, hg, hne, bind, Except.bind, pure, Except.pure]
  | some m =>
    have hm : m ≠ .directory := fun h => htd (by rw [hg, h])
    cases m with
    | directory => exact absurd rfl hm
    | file c mode => simp [hnd, hs, ht, hg, hne, bind, Except.bind, pure, Except.pure]
    | executable u => simp [hnd, hs, ht, hg, hne, bind, Except.bind, pure, Except.pure]

/-- After a location is set, every entry there holds the node set. -/
theorem entries_set_self (x : Location) (n : Node) :
    ∀ e ∈ (t.set x n).entries, e.1 = x → e.2 = n := by
  intro e he hex
  unfold set at he
  split at he
  · obtain ⟨e', -, rfl⟩ := List.mem_map.mp he
    by_cases h : e'.1 = x
    · simp [h]
    · simp [h] at hex
  · rename_i hany
    rcases List.mem_append.mp he with he | he
    · exact absurd (List.any_eq_true.mpr ⟨e, he, by simp [hex]⟩) hany
    · rw [List.mem_singleton.mp he]

/-- Setting another location keeps what the entries at a location hold. -/
theorem entries_set_ne {x y : Location} {n : Node} (m : Node) (hyx : y ≠ x)
    (h : ∀ e ∈ t.entries, e.1 = x → e.2 = n) :
    ∀ e ∈ (t.set y m).entries, e.1 = x → e.2 = n := by
  intro e he hex
  unfold set at he
  split at he
  · obtain ⟨e', he', rfl⟩ := List.mem_map.mp he
    by_cases hy : e'.1 = y
    · simp [hy] at hex
      exact absurd hex hyx
    · simp only [beq_iff_eq, hy, if_false] at hex ⊢
      exact h e' he' hex
  · rcases List.mem_append.mp he with he | he
    · exact h e he hex
    · rw [List.mem_singleton.mp he] at hex
      exact absurd hex hyx

/-- Setting a location to what every entry there holds changes nothing. -/
theorem set_of_entries {x : Location} {n : Node} (hall : ∀ e ∈ t.entries, e.1 = x → e.2 = n)
    (hx : x ≠ []) (hget : t.get? x = some n) : t.set x n = t := by
  have hmem := mem_of_get? hget hx
  unfold set
  rw [if_pos (List.any_eq_true.mpr ⟨_, hmem, by simp⟩)]
  congr 1
  conv_rhs => rw [← List.map_id t.entries]
  apply List.map_congr_left
  intro e he
  by_cases h : e.1 = x
  · have h2 := hall e he h
    simp only [h, beq_self_eq_true, if_true, id]
    exact Prod.ext h.symm h2.symm
  · simp [h]

end FileTree

end BuildRecipe
