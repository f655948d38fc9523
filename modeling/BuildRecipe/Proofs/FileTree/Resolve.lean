import BuildRecipe.Proofs.Path.Lexical
import BuildRecipe.Proofs.FileTree.Frame
import Mathlib.Data.List.Induction
/-!
# Resolving a path in a file tree

A path is resolved one component at a time, each taken at a directory (`FileTree.descend`).
When it succeeds it ends where the path denotes (`descend_ok_eq`), and a path without `..`
succeeds exactly along the directories above that location: when they all are directories
it reaches it (`descend_of_dirs`), a change elsewhere does not alter it (`descend_set`), and a
path that reached a last name passed a directory just before it (`descend_append_normal`).

A tree is *well formed* when every entry below the root hangs from a directory, as in every
file system; then everything above an entry is a directory (`WellFormed.get?_of_isPrefix`)
and nothing lies below a location that holds nothing (`WellFormed.eraseBelow_of_get?_none`).

Joining a plain name (no slash, neither empty, `.` nor `..`) to a path adds one component
(`Path.components_join_plain`), so the file named in a folder lies one name below it.

Main statements: in a well-formed tree a path without `..` that denotes a directory is
resolved to it (`WellFormed.descend_components`), so it exists and removing it erases exactly
the entries at and below it (`removeDirAll_of_descend`); a file written is set at the
location its path denotes, reached along directories (`writeFileWith_ok`); what a path names
has the location it denotes as its canonical form (`canonicalize_of_pathExists`), and from a
working directory that holds nothing no relative path names anything
(`pathExists_of_get?_cwd_none`).
-/

namespace BuildRecipe

namespace Path

-- ============================================================================
-- Segments and components of a joined path
-- ============================================================================

/-- A name that stands for one component of its own: no slash in it, and neither empty, `.`
nor `..`. -/
def IsPlainName (n : String) : Prop := '/' ∉ n.toList ∧ n ≠ "" ∧ n ≠ "." ∧ n ≠ ".."

instance : DecidablePred IsPlainName := fun n =>
  inferInstanceAs (Decidable ('/' ∉ n.toList ∧ n ≠ "" ∧ n ≠ "." ∧ n ≠ ".."))

theorem segments_ne_nil (s : String) : segments s ≠ [] := by
  rw [segments, ne_eq, List.map_eq_nil_iff, List.splitOn_eq_splitOnP]
  exact List.splitOnP_ne_nil _ _

theorem segments_of_slash_not_mem {n : String} (hn : '/' ∉ n.toList) : segments n = [n] := by
  rw [segments, List.splitOn_eq_splitOnP, List.splitOnP_eq_singleton]
  · simp
  · intro c hc
    simpa using fun h : c = '/' => hn (h ▸ hc)

theorem segments_append_slash (p : String) {n : String} (hn : '/' ∉ n.toList) :
    segments (p ++ "/" ++ n) = segments p ++ [n] := by
  have hs : (p ++ "/" ++ n).toList = p.toList ++ '/' :: n.toList := by
    simp [String.toList_append]
  rw [segments, hs, List.splitOn_eq_splitOnP, List.splitOnP_append_cons _ _ (by simp),
    ← List.splitOn_eq_splitOnP, ← List.splitOn_eq_splitOnP, List.map_append]
  rw [← segments, ← segments, segments_of_slash_not_mem hn]

theorem segments_slash (p : String) : segments (p ++ "/") = segments p ++ [""] := by
  simpa using segments_append_slash p (show '/' ∉ "".toList by simp)

theorem head?_segments_append (p x : String) :
    (segments p ++ [x]).head? = (segments p).head? := by
  obtain ⟨s, ss, hs⟩ := List.exists_cons_of_ne_nil (segments_ne_nil p)
  rw [hs]
  rfl

/-- A slash at the end adds no component. -/
theorem components_slash_end {p : String} (hp : p ≠ "") :
    components (p ++ "/") = components p := by
  have hhead : (p ++ "/").toList.head? = p.toList.head? := by
    obtain ⟨c, cs, hc⟩ := List.exists_cons_of_ne_nil fun h => hp (String.toList_eq_nil_iff.mp h)
    simp [String.toList_append, hc]
  simp only [components, hhead, segments_slash, head?_segments_append, List.filterMap_append]
  simp

theorem components_plain {n : String} (hn : IsPlainName n) : components n = [.normal n] := by
  obtain ⟨hslash, hne, hdot, hdots⟩ := hn
  have hhead : (n.toList.head? == some '/') = false := by
    cases h : n.toList with
    | nil => rfl
    | cons c cs =>
      have hc : c ≠ '/' := fun hc => hslash (by rw [h, hc]; exact List.mem_cons_self ..)
      simp [hc]
  simp [components, hhead, segments_of_slash_not_mem hslash, hne, hdot, hdots]

theorem components_append_slash_plain (p : String) {n : String} (hn : IsPlainName n) :
    components (p ++ "/" ++ n) = components (p ++ "/") ++ [.normal n] := by
  obtain ⟨hslash, hne, hdot, hdots⟩ := hn
  have hhead : (p ++ "/" ++ n).toList.head? = (p ++ "/").toList.head? := by
    simp [String.toList_append, List.head?_append]
  simp only [components, hhead, segments_append_slash p hslash, segments_slash,
    head?_segments_append, List.filterMap_append]
  simp [hne, hdot, hdots]

theorem isAbsolute_plain {n : String} (hn : IsPlainName n) : isAbsolute n = false := by
  cases h : n.toList with
  | nil => simp [isAbsolute, h]
  | cons c cs =>
    have hc : c ≠ '/' := fun hc => hn.1 (by rw [h, hc]; exact List.mem_cons_self ..)
    simp [isAbsolute, h, hc]

/-- Joining a plain name adds its one component. -/
theorem components_join_plain (base : String) {n : String} (hn : IsPlainName n) :
    components (join base n) = components base ++ [.normal n] := by
  unfold join
  rw [isAbsolute_plain hn, if_neg Bool.false_ne_true]
  split
  · rename_i hend
    rcases Bool.or_eq_true_iff.mp hend with hempty | hslash
    · rw [String.isEmpty_iff.mp hempty, String.empty_append, components_plain hn]
      rfl
    · -- the base ends in a slash: it is a text and a slash
      obtain ⟨q, hq⟩ := List.getLast?_eq_some_iff.mp (beq_iff_eq.mp hslash)
      have hbase : base = String.ofList q ++ "/" :=
        String.ext (by simp [hq, String.toList_append])
      rw [hbase, components_append_slash_plain _ hn]
  · rename_i hend
    have hne : base ≠ "" := fun h => hend (by simp [h])
    rw [components_append_slash_plain _ hn, components_slash_end hne]

theorem denote_join_plain (cwd : List String) (base : String) {n : String} (hn : IsPlainName n) :
    denote cwd (join base n) = denote cwd base ++ [n] := by
  rw [denote, components_join_plain base hn, List.foldl_append]
  rfl

end Path

namespace FileTree

variable {t : FileTree}

-- ============================================================================
-- Well-formed trees
-- ============================================================================

theorem mem_of_get? {x : Location} {n : Node} (hx : t.get? x = some n) (hne : x ≠ []) :
    (x, n) ∈ t.entries := by
  rw [get?, if_neg hne] at hx
  obtain ⟨e, he, rfl⟩ := Option.map_eq_some_iff.mp hx
  have hex : e.1 = x := by simpa using List.find?_some he
  rw [← hex]
  exact List.mem_of_find?_eq_some he

theorem get?_ne_none_of_mem {e : Location × Node} (he : e ∈ t.entries) :
    t.get? e.1 ≠ none := by
  unfold get?
  split
  · simp
  · rw [ne_eq, Option.map_eq_none_iff, List.find?_eq_none]
    exact fun hall => hall e he (by simp)

/-- Trees with the same entries in the same order are equal. -/
instance : DecidableEq FileTree := fun a b =>
  decidable_of_iff (a.entries = b.entries) ⟨fun h => by cases a; cases b; cases h; rfl,
    fun h => h ▸ rfl⟩

theorem noFileAt_iff {x : Location} :
    t.NoFileAt x ↔ t.get? x = none ∨ t.get? x = some .directory := by
  constructor
  · intro h
    cases hg : t.get? x with
    | none => exact .inl rfl
    | some n => exact .inr (by rw [h n hg])
  · rintro (hg | hg) n hn
    · rw [hg] at hn
      cases hn
    · rw [hg] at hn
      exact (Option.some.inj hn).symm

instance {x : Location} : Decidable (t.NoFileAt x) :=
  decidable_of_iff _ noFileAt_iff.symm

/-- Every entry below the root hangs from a directory. -/
def WellFormed (t : FileTree) : Prop :=
  ∀ e ∈ t.entries, e.1 ≠ [] → t.get? e.1.dropLast = some .directory

instance : DecidablePred WellFormed := fun t =>
  inferInstanceAs
    (Decidable (∀ e ∈ t.entries, e.1 ≠ [] → t.get? e.1.dropLast = some .directory))

namespace WellFormed

theorem get?_dropLast (h : t.WellFormed) {x : Location} {n : Node} (hx : t.get? x = some n)
    (hne : x ≠ []) : t.get? x.dropLast = some .directory :=
  h _ (mem_of_get? hx hne) hne

/-- Above a location that holds something lie only directories. -/
theorem get?_of_isPrefix (h : t.WellFormed) {x : Location} {n : Node} (hx : t.get? x = some n)
    {y : Location} (hy : y <+: x) (hyx : y ≠ x) : t.get? y = some .directory := by
  induction x using List.reverseRecOn generalizing n with
  | nil => exact absurd (List.prefix_nil.mp hy) hyx
  | append_singleton x a ih =>
    have hparent : t.get? x = some .directory := by
      simpa using h.get?_dropLast hx (by simp)
    rcases List.prefix_concat_iff.mp hy with rfl | hy'
    · exact absurd rfl hyx
    · by_cases hyx' : y = x
      · rw [hyx']
        exact hparent
      · exact ih hparent hy' hyx'

/-- Nothing lies below a location that holds nothing. -/
theorem eraseBelow_of_get?_none (h : t.WellFormed) {L : Location} (hL : t.get? L = none) :
    t.eraseBelow L = t := by
  unfold eraseBelow
  rw [List.filter_eq_self.mpr]
  intro e he
  rw [Bool.not_eq_true', Bool.eq_false_iff]
  intro hpre
  obtain ⟨n, hn⟩ := Option.ne_none_iff_exists'.mp (get?_ne_none_of_mem he)
  by_cases heL : L = e.1
  · rw [heL, hn] at hL
    cases hL
  · rw [h.get?_of_isPrefix hn (List.isPrefixOf_iff_prefix.mp hpre) heL] at hL
    cases hL

end WellFormed

-- ============================================================================
-- Resolution along directories
-- ============================================================================

theorem descend_ok_eq {cs : List Component} {here l : Location} (h : t.descend here cs = .ok l) :
    l = cs.foldl Component.enter here := by
  induction cs generalizing here with
  | nil =>
    simp only [descend, Except.ok.injEq] at h
    exact h.symm
  | cons c rest ih =>
    cases c with
    | root => exact ih h
    | current | parent | normal _ =>
      -- every other component is taken at a directory
      rcases hg : t.get? here with _ | _ | _ <;> simp only [descend, hg, reduceCtorEq] at h
      exact ih h

theorem isPrefix_foldl_enter {cs : List Component} (hr : .root ∉ cs) (hp : .parent ∉ cs)
    (here : Location) : here <+: cs.foldl Component.enter here := by
  induction cs generalizing here with
  | nil => exact List.prefix_refl here
  | cons c rest ih =>
    rw [List.mem_cons, not_or] at hr hp
    cases c with
    | root => exact absurd rfl hr.1
    | parent => exact absurd rfl hp.1
    | current => exact ih hr.2 hp.2 here
    | normal n => exact (List.prefix_append here [n]).trans (ih hr.2 hp.2 _)

/-- Without `..`, a path is resolved to the location it denotes when every location above
that one is a directory. -/
theorem descend_of_dirs {cs : List Component} (hr : .root ∉ cs) (hp : .parent ∉ cs)
    (here : Location)
    (hd : ∀ y, y <+: cs.foldl Component.enter here → t.get? y = some .directory) :
    t.descend here cs = .ok (cs.foldl Component.enter here) := by
  induction cs generalizing here with
  | nil => rfl
  | cons c rest ih =>
    have hhere := hd here (isPrefix_foldl_enter hr hp here)
    rw [List.mem_cons, not_or] at hr hp
    cases c with
    | root => exact absurd rfl hr.1
    | parent => exact absurd rfl hp.1
    | current =>
      simp only [descend, hhere]
      exact ih hr.2 hp.2 here hd
    | normal n =>
      simp only [descend, hhere]
      exact ih hr.2 hp.2 _ hd

/-- A path resolved up to a last name passed a directory just before it. -/
theorem descend_append_normal {cs : List Component} {here l : Location} {n : String}
    (h : t.descend here (cs ++ [.normal n]) = .ok l) :
    t.descend here cs = .ok (cs.foldl Component.enter here) ∧
      t.get? (cs.foldl Component.enter here) = some .directory := by
  induction cs generalizing here with
  | nil =>
    rcases hg : t.get? here with _ | _ | _ <;>
      simp only [List.nil_append, descend, hg, reduceCtorEq] at h
    exact ⟨rfl, hg⟩
  | cons c rest ih =>
    cases c with
    | root => exact ih h
    | current | parent | normal _ =>
      rcases hg : t.get? here with _ | _ | _ <;>
        simp only [List.cons_append, descend, hg, reduceCtorEq] at h
      simp only [descend, hg]
      exact ih h

/-- Changing a location that lies on no way to where a path leads changes nothing of how it
is resolved. -/
theorem descend_set {cs : List Component} (hr : .root ∉ cs) (hp : .parent ∉ cs)
    (here : Location) {x : Location} (hx : ¬ x <+: cs.foldl Component.enter here) (v : Node) :
    (t.set x v).descend here cs = t.descend here cs := by
  induction cs generalizing here with
  | nil => rfl
  | cons c rest ih =>
    have hne : here ≠ x := fun h => hx (h ▸ isPrefix_foldl_enter hr hp here)
    rw [List.mem_cons, not_or] at hr hp
    cases c with
    | root => exact absurd rfl hr.1
    | parent => exact absurd rfl hp.1
    | current =>
      simp only [descend, get?_set_ne t v hne, ih hr.2 hp.2 here hx]
    | normal n =>
      simp only [descend, get?_set_ne t v hne, ih hr.2 hp.2 (here ++ [n]) hx]

-- ============================================================================
-- Resolving a path text
-- ============================================================================

/-- A path without `..` is resolved as a list of components with neither root nor `..`, taken
from the root when the path is absolute and from the working directory otherwise. -/
theorem components_from_start (cwd : Location) {p : String} (hp : .parent ∉ Path.components p) :
    ∃ here named, .root ∉ named ∧ .parent ∉ named ∧
      (∀ t : FileTree, t.descend cwd (Path.components p) = t.descend here named) ∧
      Path.denote cwd p = named.foldl Component.enter here := by
  cases habs : Path.isAbsolute p with
  | true =>
    -- a leading root starts over at the root
    obtain ⟨named, hc, hn⟩ := Path.components_of_isAbsolute habs
    rw [hc, List.mem_cons, not_or] at hp
    refine ⟨[], named, hn, hp.2, fun t => ?_, ?_⟩
    · rw [hc]
      rfl
    · rw [Path.denote, hc]
      rfl
  | false => exact ⟨cwd, _, Path.root_not_mem_components habs, hp, fun _ => rfl, rfl⟩

/-- Without `..`, a path is resolved to the location it denotes when every location above
that one is a directory. -/
theorem descend_components_of_dirs {cwd : Location} {p : String}
    (hp : .parent ∉ Path.components p)
    (hd : ∀ y, y <+: Path.denote cwd p → t.get? y = some .directory) :
    t.descend cwd (Path.components p) = .ok (Path.denote cwd p) := by
  obtain ⟨here, named, hr, hpn, hdesc, hden⟩ := components_from_start cwd hp
  rw [hden] at hd ⊢
  rw [hdesc]
  exact descend_of_dirs hr hpn here hd

theorem descend_components_set {cwd : Location} {p : String} (hp : .parent ∉ Path.components p)
    {x : Location} (hx : ¬ x <+: Path.denote cwd p) (v : Node) :
    (t.set x v).descend cwd (Path.components p) = t.descend cwd (Path.components p) := by
  obtain ⟨here, named, hr, hpn, hdesc, hden⟩ := components_from_start cwd hp
  rw [hden] at hx
  rw [hdesc, hdesc]
  exact descend_set hr hpn here hx v

/-- In a well-formed tree, a path without `..` is resolved to the directory it denotes. -/
theorem WellFormed.descend_components (h : t.WellFormed) {cwd : Location} {p : String}
    (hp : .parent ∉ Path.components p) (hL : t.get? (Path.denote cwd p) = some .directory) :
    t.descend cwd (Path.components p) = .ok (Path.denote cwd p) := by
  refine descend_components_of_dirs hp fun y hy => ?_
  by_cases hyL : y = Path.denote cwd p
  · rw [hyL, hL]
  · exact h.get?_of_isPrefix hL hy hyL

theorem resolve_location {cwd : Location} {p : String} {r : Resolved}
    (h : t.resolve cwd p = .ok r) :
    t.descend cwd (Path.components p) = .ok r.location ∧ r.location = Path.denote cwd p := by
  unfold resolve at h
  split at h
  · cases h
  · split at h
    · rename_i l hl
      cases h
      exact ⟨hl, descend_ok_eq hl⟩
    · cases h

theorem pathExists_of_get?_none {cwd : Location} {p : String}
    (hL : t.get? (Path.denote cwd p) = none) : t.pathExists cwd p = false := by
  unfold pathExists metadata
  cases hr : t.resolve cwd p with
  | error e => rfl
  | ok r =>
    simp [bind, Except.bind, (resolve_location hr).2, hL, throw, throwThe, MonadExceptOf.throw]

/-- From a location that holds nothing, a path that does not start over reaches nothing else. -/
theorem descend_of_get?_none {here l : Location} (h : t.get? here = none) {cs : List Component}
    (hr : .root ∉ cs) (hd : t.descend here cs = .ok l) : l = here := by
  cases cs with
  | nil =>
    simp only [descend, Except.ok.injEq] at hd
    exact hd.symm
  | cons c rest =>
    cases c with
    | root => exact absurd List.mem_cons_self hr
    | current | parent | normal _ => simp [descend, h] at hd

/-- From a working directory that holds nothing, no relative path names anything. -/
theorem pathExists_of_get?_cwd_none {cwd : Location} (hcwd : t.get? cwd = none) {p : String}
    (hp : Path.isAbsolute p = false) : t.pathExists cwd p = false := by
  unfold pathExists metadata
  cases hr : t.resolve cwd p with
  | error e => rfl
  | ok r =>
    have hloc := descend_of_get?_none hcwd (Path.root_not_mem_components hp) (resolve_location hr).1
    simp [bind, Except.bind, hloc, hcwd, throw, throwThe, MonadExceptOf.throw]

theorem pathExists_empty (cwd : Location) : t.pathExists cwd "" = false := by
  simp [pathExists, metadata, resolve, bind, Except.bind]

/-- What a path names is canonically at the location it denotes. -/
theorem canonicalize_of_pathExists {cwd : Location} {p : String}
    (h : t.pathExists cwd p = true) : t.canonicalize cwd p = .ok (Path.denote cwd p) := by
  unfold pathExists at h
  split at h
  · rename_i n hm
    unfold metadata at hm
    cases hr : t.resolve cwd p with
    | error e => simp [hr, bind, Except.bind] at hm
    | ok r =>
      unfold canonicalize metadata
      simp only [hr, bind, Except.bind] at hm ⊢
      rw [hm, ← (resolve_location hr).2]
      rfl
  · cases h

/-- A path that names nothing has no canonical form. -/
theorem canonicalize_of_not_pathExists {cwd : Location} {p : String}
    (h : t.pathExists cwd p = false) : ∃ f, t.canonicalize cwd p = .error f := by
  unfold pathExists at h
  split at h
  · cases h
  · rename_i f hm
    exact ⟨f, by simp [canonicalize, hm, bind, Except.bind]⟩

theorem resolve_of_descend {cwd : Location} {p : String} (hne : p ≠ "")
    (hd : t.descend cwd (Path.components p) = .ok (Path.denote cwd p)) :
    t.resolve cwd p = .ok ⟨Path.denote cwd p, asksForDirectory p⟩ := by
  simp [resolve, hne, hd]

theorem directoryAt_of_descend {cwd : Location} {p : String} (hne : p ≠ "")
    (hd : t.descend cwd (Path.components p) = .ok (Path.denote cwd p))
    (hL : t.get? (Path.denote cwd p) = some .directory) :
    t.directoryAt cwd p = .ok (Path.denote cwd p) := by
  simp [directoryAt, resolve_of_descend hne hd, hL, bind, Except.bind, pure, Except.pure]

theorem pathExists_of_descend {cwd : Location} {p : String} (hne : p ≠ "")
    (hd : t.descend cwd (Path.components p) = .ok (Path.denote cwd p))
    (hL : t.get? (Path.denote cwd p) = some .directory) : t.pathExists cwd p = true := by
  simp [pathExists, metadata, resolve_of_descend hne hd, hL, bind, Except.bind, pure,
    Except.pure, Node.isDirectory]

theorem removeDirAll_of_descend {cwd : Location} {p : String} (hne : p ≠ "")
    (hd : t.descend cwd (Path.components p) = .ok (Path.denote cwd p))
    (hL : t.get? (Path.denote cwd p) = some .directory) :
    t.removeDirAll cwd p = .ok (t.eraseBelow (Path.denote cwd p)) := by
  simp [removeDirAll, directoryAt_of_descend hne hd hL, bind, Except.bind, pure, Except.pure]

/-- A file written was written at the location its path denotes, reached along directories. -/
theorem writeFileWith_ok {cwd : Location} {p : String} {c : Bytes} {mode : Nat} {t' : FileTree}
    (h : t.writeFileWith cwd p c mode = .ok t') :
    t.descend cwd (Path.components p) = .ok (Path.denote cwd p) ∧
      ∃ m, t' = t.set (Path.denote cwd p) (.file c m) := by
  unfold writeFileWith at h
  cases hr : t.resolve cwd p with
  | error e => simp [hr, bind, Except.bind] at h
  | ok r =>
    obtain ⟨hd, hloc⟩ := resolve_location hr
    rw [← hloc]
    refine ⟨hd, ?_⟩
    simp only [hr, bind, Except.bind] at h
    split at h
    · cases h
    · split at h
      · cases h
      · cases h
        exact ⟨_, rfl⟩

end FileTree

end BuildRecipe
