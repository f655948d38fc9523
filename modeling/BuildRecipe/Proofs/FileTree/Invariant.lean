import BuildRecipe.Proofs.FileTree.SortedWalk
import BuildRecipe.Proofs.FileTree.Folders
/-!
# Trees a file system can hold

A tree is *consistent* when it could be the state of a file system: every entry hangs from a
directory (`WellFormed`), one entry stands at each location, and every name is plain
(`Consistent`). The edits keep it under the conditions the operations check before they edit.
A node set where a path resolves, at a location that holds no directory, hangs from the
directory the path reached just before, by a plain name (`WellFormed.resolve_new`); a file or
an empty directory erased has nothing below it; and erasing a location with everything below
it leaves nothing hanging (`Consistent.set`, `Consistent.erase`, `Consistent.eraseBelow`).

Main statements: every successful edit of a consistent tree gives a consistent tree
(`Consistent.createDir`, `Consistent.createDirAll`, `Consistent.writeFileWith`,
`Consistent.appendFile`, `Consistent.copyFile`, `Consistent.removeFile`,
`Consistent.removeDir`, `Consistent.removeDirAll`), so each edit acts on the trees that carry
the fact (`ConsistentTree.edit`) and does to them what it does to any tree
(`ConsistentTree.map_val_edit`).
-/

namespace BuildRecipe

namespace Path

/-- A name among a path's components is plain. -/
theorem isPlainName_of_normal_mem {s n : String} (h : .normal n ∈ components s) :
    IsPlainName n := by
  obtain ⟨head, rest, hK, hhead, hrest⟩ := canonical_components s
  rw [hK] at h
  rcases List.mem_append.mp h with h | h
  · rcases hhead with rfl | rfl | rfl <;> simp at h
  · exact hrest _ h

/-- A path that is not empty has a component: the root, a leading `.`, or what its first
segment names. -/
theorem components_ne_nil {s : String} (hs : s ≠ "") : components s ≠ [] := by
  cases habs : isAbsolute s with
  | true =>
    obtain ⟨named, hc, -⟩ := components_of_isAbsolute habs
    rw [hc]
    exact List.cons_ne_nil _ _
  | false =>
    -- the first segment starts with the path's first character, which is not a slash
    obtain ⟨c, w, hcw⟩ := List.exists_cons_of_ne_nil fun h => hs (String.toList_eq_nil_iff.mp h)
    have hc : c ≠ '/' := by
      intro h
      simp [isAbsolute, hcw, h] at habs
    obtain ⟨a, rest, har⟩ := List.exists_cons_of_ne_nil (List.splitOnP_ne_nil (· == '/') w)
    have hseg : segments s = String.ofList (c :: a) :: rest.map String.ofList := by
      rw [segments, hcw, List.splitOn_eq_splitOnP, List.splitOnP_cons_eq_if_modifyHead,
        if_neg (by simpa using hc), har]
      rfl
    have hne : String.ofList (c :: a) ≠ "" := fun h => by
      simpa using congrArg String.toList h
    generalize String.ofList (c :: a) = seg at hseg hne
    unfold components
    by_cases hdot : seg = "."
    · simp [hcw, hseg, hdot, hc]
    · by_cases hdots : seg = ".."
      · simp [hcw, hseg, hdots, hc]
      · simp [hcw, hseg, hdot, hdots, hne, hc]

end Path

namespace FileTree

variable {t t' : FileTree}

-- ============================================================================
-- Locations of plain names
-- ============================================================================

/-- A location whose names are all plain. -/
def PlainLocation (x : Location) : Prop := ∀ a ∈ x, Path.IsPlainName a

instance : DecidablePred PlainLocation := fun x =>
  inferInstanceAs (Decidable (∀ a ∈ x, Path.IsPlainName a))

/-- Every location that holds something is a location of plain names. -/
def PlainNames (t : FileTree) : Prop := ∀ x n, t.get? x = some n → PlainLocation x

theorem plainNames_of_entries (h : ∀ e ∈ t.entries, PlainLocation e.1) : t.PlainNames := by
  intro x n hx
  by_cases hne : x = []
  · subst hne
    intro a ha
    cases ha
  · exact h _ (mem_of_get? hx hne)

theorem PlainNames.child (h : t.PlainNames) {l : Location} {n : String}
    (hn : n ∈ t.children l) : Path.IsPlainName n := by
  obtain ⟨node, hnode⟩ := get?_of_mem_children hn
  exact h _ _ hnode n (List.mem_append_right _ (List.mem_singleton_self n))

/-- One component taken from a location of plain names, a plain name if it is a name, leads
to a location of plain names. -/
theorem plainLocation_enter {here : Location} (hhere : PlainLocation here) {c : Component}
    (hc : ∀ n, c = .normal n → Path.IsPlainName n) : PlainLocation (c.enter here) := by
  cases c with
  | root => exact fun a ha => by cases ha
  | current => exact hhere
  | parent => exact fun a ha => hhere a (List.dropLast_subset _ ha)
  | normal n =>
    intro a ha
    rcases List.mem_append.mp ha with ha | ha
    · exact hhere a ha
    · rw [List.mem_singleton.mp ha]
      exact hc n rfl

/-- The stops of components taken from a location of plain names, each a plain name if it is
a name, are locations of plain names; the induction is on the components. -/
theorem plainLocation_of_mem_stops {here : Location} (hhere : PlainLocation here)
    {cs : List Component} (hK : ∀ n, .normal n ∈ cs → Path.IsPlainName n) :
    ∀ x ∈ stops here cs, PlainLocation x := by
  induction cs generalizing here with
  | nil =>
    intro x hx
    rw [stops_nil, List.mem_singleton] at hx
    rw [hx]
    exact hhere
  | cons c rest ih =>
    have hrest : ∀ n, .normal n ∈ rest → Path.IsPlainName n :=
      fun n hn => hK n (List.mem_cons_of_mem _ hn)
    have hnext := plainLocation_enter hhere fun n hn => hK n (hn ▸ List.mem_cons_self)
    intro x hx
    by_cases hc : c = .root
    · subst hc
      exact ih (fun a ha => by cases ha) hrest x hx
    · rw [stops_cons_of_ne_root _ hc] at hx
      rcases List.mem_cons.mp hx with rfl | hx
      · exact hhere
      · exact ih hnext hrest x hx

theorem plainLocation_denote {cwd : Location} (hcwd : PlainLocation cwd) (p : String) :
    PlainLocation (Path.denote cwd p) :=
  plainLocation_of_mem_stops hcwd (fun _ h => Path.isPlainName_of_normal_mem h) _
    (end_mem_stops _ _)

-- ============================================================================
-- Consistent trees
-- ============================================================================

/-- A tree whose entries each lie in a directory, one entry to a location, every name plain. -/
structure Consistent (t : FileTree) : Prop where
  wellFormed : t.WellFormed
  nodup : (t.entries.map (·.1)).Nodup
  plain : ∀ e ∈ t.entries, ∀ n ∈ e.1, Path.IsPlainName n

instance : DecidablePred Consistent := fun t =>
  decidable_of_iff (t.WellFormed ∧ (t.entries.map (·.1)).Nodup ∧
      ∀ e ∈ t.entries, ∀ n ∈ e.1, Path.IsPlainName n)
    ⟨fun ⟨h1, h2, h3⟩ => ⟨h1, h2, h3⟩, fun h => ⟨h.1, h.2, h.3⟩⟩

theorem Consistent.plain_of_get? (hc : t.Consistent) {x : Location} {n : Node}
    (h : t.get? x = some n) (hx : x ≠ []) : ∀ a ∈ x, Path.IsPlainName a :=
  hc.plain _ (mem_of_get? h hx)

theorem Consistent.plainNames (hc : t.Consistent) : t.PlainNames :=
  plainNames_of_entries hc.plain

-- ============================================================================
-- Entries after the primitive edits
-- ============================================================================

theorem mem_set {l : Location} {n : Node} {e : Location × Node}
    (he : e ∈ (t.set l n).entries) : e = (l, n) ∨ (e ∈ t.entries ∧ e.1 ≠ l) := by
  unfold set at he
  split at he
  · obtain ⟨e', he', rfl⟩ := List.mem_map.mp he
    by_cases h : e'.1 = l
    · simp [h]
    · simp only [beq_iff_eq, h, if_false]
      exact .inr ⟨he', h⟩
  · rename_i hany
    rcases List.mem_append.mp he with he | he
    · refine .inr ⟨he, fun h => hany (List.any_eq_true.mpr ⟨e, he, by simp [h]⟩)⟩
    · exact .inl (List.mem_singleton.mp he)

/-- Setting a location keeps one entry to a location: it replaces the entries there, or adds
one where there was none. -/
theorem nodup_set (hnd : (t.entries.map (·.1)).Nodup) (l : Location) (n : Node) :
    ((t.set l n).entries.map (·.1)).Nodup := by
  unfold set
  split
  · have hfst : (t.entries.map fun e => if e.1 == l then (l, n) else e).map (·.1) =
        t.entries.map (·.1) := by
      rw [List.map_map]
      refine List.map_congr_left fun e _ => ?_
      by_cases h : e.1 = l <;> simp [h]
    rw [hfst]
    exact hnd
  · rename_i hany
    rw [List.map_append, List.nodup_append]
    refine ⟨hnd, List.nodup_singleton _, fun a ha b hb hab => hany ?_⟩
    obtain ⟨e, he, rfl⟩ := List.mem_map.mp ha
    rw [List.mem_singleton.mp hb] at hab
    exact List.any_eq_true.mpr ⟨e, he, by simp [hab]⟩

theorem get?_erase_ne (t : FileTree) {l x : Location} (h : x ≠ l) :
    (t.erase l).get? x = t.get? x := by
  unfold get? erase
  split
  · rfl
  · rw [List.find?_filter]
    congr 2
    funext e
    by_cases he : e.1 = x
    · simp [he, h]
    · simp [he]

theorem nodup_filter (hnd : (t.entries.map (·.1)).Nodup) (p : Location × Node → Bool) :
    ((t.entries.filter p).map (·.1)).Nodup :=
  hnd.sublist (List.filter_sublist.map _)

-- ============================================================================
-- Well-formed trees under the primitive edits
-- ============================================================================

namespace WellFormed

/-- A node set at a location that hangs from a directory keeps the tree well formed, when the
location held no directory (so nothing hung from it) or the node is one. -/
theorem set (h : t.WellFormed) {l : Location} {n : Node}
    (hp : l ≠ [] → t.get? l.dropLast = some .directory)
    (hl : t.get? l ≠ some .directory ∨ n = .directory) : (t.set l n).WellFormed := by
  intro e he hne
  rcases mem_set he with rfl | ⟨he, hel⟩
  · -- the entry set hangs from the directory above it, which keeps its node
    have hl0 : l ≠ [] := hne
    have hne' : l.dropLast ≠ l := fun h' => hl0 (List.eq_nil_of_length_eq_zero (by
      have hlen := congrArg List.length h'
      rw [List.length_dropLast] at hlen
      omega))
    rw [get?_set_ne t n hne']
    exact hp hl0
  · have hd := h e he hne
    by_cases hdl : e.1.dropLast = l
    · -- what hung from the location still does, for the location keeps a directory
      have hn : n = .directory := hl.resolve_left fun h' => h' (hdl ▸ hd)
      subst hn
      by_cases hl0 : l = []
      · rw [hdl, hl0]
        exact get?_root _
      · rw [hdl]
        exact get?_set_self t l _ hl0
    · rw [get?_set_ne t n hdl]
      exact hd

/-- Erasing a location from which nothing hangs keeps the tree well formed. -/
theorem erase (h : t.WellFormed) {l : Location}
    (hl : ∀ e ∈ t.entries, e.1 ≠ [] → e.1.dropLast ≠ l) : (t.erase l).WellFormed := by
  intro e he hne
  have he' := (List.mem_filter.mp he).1
  rw [get?_erase_ne t (hl e he' hne)]
  exact h e he' hne

/-- Erasing a location with everything below it keeps the tree well formed. -/
theorem eraseBelow (h : t.WellFormed) (l : Location) : (t.eraseBelow l).WellFormed := by
  intro e he hne
  obtain ⟨he', hkeep⟩ := List.mem_filter.mp he
  have hnot : ¬ l <+: e.1 := fun hp => by
    simp [List.isPrefixOf_iff_prefix.mpr hp] at hkeep
  rw [get?_eraseBelow, if_neg fun hp => hnot (hp.1.trans (List.dropLast_prefix _))]
  exact h e he' hne

/-- Nothing hangs from a location that holds no directory. -/
theorem not_parent (h : t.WellFormed) {l : Location} (hl : t.get? l ≠ some .directory) :
    ∀ e ∈ t.entries, e.1 ≠ [] → e.1.dropLast ≠ l :=
  fun e he hne hel => hl (hel ▸ h e he hne)

/-- Where components lead from a location: to a directory, or one name below a directory the
walk passed, by a name among the components. -/
theorem descend_last (h : t.WellFormed) {here l : Location} {cs : List Component}
    (hd : t.descend here cs = .ok l) (hcs : cs ≠ []) :
    t.get? l = some .directory ∨
      ∃ x n, l = x ++ [n] ∧ t.get? x = some .directory ∧ .normal n ∈ cs := by
  obtain ⟨cs', c, rfl⟩ := (List.eq_nil_or_concat' cs).resolve_left hcs
  obtain ⟨hdirs, rfl⟩ := descend_eq_ok_iff.mp hd
  rw [List.foldl_append, List.foldl_cons, List.foldl_nil]
  by_cases hroot : c = .root
  · subst hroot
    exact .inl (get?_root t)
  -- the walk stood at a directory before the last component
  have hx : t.get? (cs'.foldl Component.enter here) = some .directory := by
    rw [stops_append_single _ _ hroot, List.dropLast_concat] at hdirs
    exact hdirs _ (end_mem_stops _ _)
  cases c with
  | root => exact absurd rfl hroot
  | current => exact .inl hx
  | parent =>
    refine .inl ?_
    by_cases hne : cs'.foldl Component.enter here = []
    · rw [Component.enter, hne]
      exact get?_root t
    · exact h.get?_dropLast hx hne
  | normal n => exact .inr ⟨_, n, rfl, hx, List.mem_append_right _ (List.mem_singleton_self _)⟩

/-- A path resolved to a location that holds no directory leads one plain name below a
directory. -/
theorem resolve_new (h : t.WellFormed) {cwd : Location} {p : String} {r : Resolved}
    (hr : t.resolve cwd p = .ok r) (hnd : t.get? r.location ≠ some .directory) :
    ∃ x n, r.location = x ++ [n] ∧ t.get? x = some .directory ∧ Path.IsPlainName n := by
  have hp : p ≠ "" := by
    rintro rfl
    simp [resolve] at hr
  obtain ⟨hd, -⟩ := resolve_location hr
  rcases h.descend_last hd (Path.components_ne_nil hp) with hdir | ⟨x, n, hl, hx, hn⟩
  · exact absurd hdir hnd
  · exact ⟨x, n, hl, hx, Path.isPlainName_of_normal_mem hn⟩

end WellFormed

-- ============================================================================
-- Consistent trees under the primitive edits
-- ============================================================================

theorem bind_eq_ok {ε α β : Type} {x : Except ε α} {f : α → Except ε β} {b : β}
    (h : x >>= f = .ok b) : ∃ a, x = .ok a ∧ f a = .ok b := by
  cases x with
  | error e => cases h
  | ok a => exact ⟨a, rfl, h⟩

namespace Consistent

theorem set (hc : t.Consistent) {l : Location} {n : Node}
    (hp : l ≠ [] → t.get? l.dropLast = some .directory)
    (hl : t.get? l ≠ some .directory ∨ n = .directory) (hplain : PlainLocation l) :
    (t.set l n).Consistent where
  wellFormed := hc.wellFormed.set hp hl
  nodup := nodup_set hc.nodup l n
  plain e he := by
    rcases mem_set he with rfl | ⟨he, -⟩
    · exact hplain
    · exact hc.plain e he

theorem erase (hc : t.Consistent) {l : Location}
    (hl : ∀ e ∈ t.entries, e.1 ≠ [] → e.1.dropLast ≠ l) : (t.erase l).Consistent where
  wellFormed := hc.wellFormed.erase hl
  nodup := nodup_filter hc.nodup _
  plain e he := hc.plain e (List.mem_filter.mp he).1

theorem eraseBelow (hc : t.Consistent) (l : Location) : (t.eraseBelow l).Consistent where
  wellFormed := hc.wellFormed.eraseBelow l
  nodup := nodup_filter hc.nodup _
  plain e he := hc.plain e (List.mem_filter.mp he).1

/-- Any node set where a path resolves, at a location that holds no directory, keeps the tree
consistent. -/
theorem set_resolved (hc : t.Consistent) {cwd : Location} {p : String} {r : Resolved}
    (hr : t.resolve cwd p = .ok r) (hnd : t.get? r.location ≠ some .directory) (n : Node) :
    (t.set r.location n).Consistent := by
  obtain ⟨x, a, hl, hx, ha⟩ := hc.wellFormed.resolve_new hr hnd
  refine hc.set (fun _ => ?_) (.inl hnd) ?_
  · rw [hl, List.dropLast_concat]
    exact hx
  · rw [hl]
    intro b hb
    rcases List.mem_append.mp hb with hb | hb
    · exact hc.plainNames x _ hx b hb
    · rw [List.mem_singleton.mp hb]
      exact ha

-- ============================================================================
-- Consistent trees under the operations
-- ============================================================================

variable {cwd : Location}

theorem createDir (hc : t.Consistent) {p : String} (h : t.createDir cwd p = .ok t') :
    t'.Consistent := by
  unfold FileTree.createDir at h
  obtain ⟨r, hr, h⟩ := bind_eq_ok h
  split at h
  · cases h
  · rename_i hg
    cases h
    exact hc.set_resolved hr (by simp [hg]) _

theorem createDirAll (hc : t.Consistent) {p : String} (h : t.createDirAll cwd p = .ok t') :
    t'.Consistent :=
  createDirAllFrom_induction cwd Consistent (fun _ _ _ hcd hc => hc.createDir hcd) _ _ _ _ h hc

theorem writeFileWith (hc : t.Consistent) {p : String} {content : Bytes} {mode : Nat}
    (h : t.writeFileWith cwd p content mode = .ok t') : t'.Consistent := by
  unfold FileTree.writeFileWith at h
  obtain ⟨r, hr, h⟩ := bind_eq_ok h
  split at h
  · cases h
  · rename_i hg
    split at h
    · cases h
    · cases h
      exact hc.set_resolved hr hg _

theorem appendFile (hc : t.Consistent) {p : String} {more : Bytes} {mode : Nat}
    (h : t.appendFile cwd p more mode = .ok t') : t'.Consistent := by
  unfold FileTree.appendFile at h
  obtain ⟨r, hr, h⟩ := bind_eq_ok h
  split at h
  · cases h
  · rename_i hg
    cases h
    exact hc.set_resolved hr (by simp [hg]) _
  · rename_i hg _
    split at h
    · cases h
    · cases h
      exact hc.set_resolved hr hg _

theorem copyFile (hc : t.Consistent) {src dst : String} (h : t.copyFile cwd src dst = .ok t') :
    t'.Consistent := by
  unfold FileTree.copyFile at h
  obtain ⟨node, -, h⟩ := bind_eq_ok h
  dsimp only at h
  split at h
  · obtain ⟨_, h, -⟩ := bind_eq_ok h
    cases h
  obtain ⟨_, -, h⟩ := bind_eq_ok h
  obtain ⟨r, hr, h⟩ := bind_eq_ok h
  split at h
  · cases h
  · rename_i hg
    split at h
    · cases h
    · split at h <;> cases h <;> exact hc.set_resolved hr hg _

theorem removeFile (hc : t.Consistent) {p : String} (h : t.removeFile cwd p = .ok t') :
    t'.Consistent := by
  unfold FileTree.removeFile at h
  obtain ⟨r, hr, h⟩ := bind_eq_ok h
  split at h
  · cases h
  · cases h
  · rename_i n hg hn
    split at h
    · cases h
    · cases h
      exact hc.erase (hc.wellFormed.not_parent fun h' => hg (Option.some.inj (hn.symm.trans h')))

theorem removeDir (hc : t.Consistent) {p : String} (h : t.removeDir cwd p = .ok t') :
    t'.Consistent := by
  unfold FileTree.removeDir at h
  obtain ⟨l, -, h⟩ := bind_eq_ok h
  split at h
  · rename_i hempty
    cases h
    -- an entry hanging from the directory would be one of its children
    refine hc.erase fun e he hne hel => ?_
    obtain ⟨node, hnode⟩ := Option.ne_none_iff_exists'.mp (get?_ne_none_of_mem he)
    have hget : t.get? (l ++ [e.1.getLast hne]) = some node := by
      rw [← hel, List.dropLast_append_getLast hne]
      exact hnode
    have hchild := mem_children_of_get? hget
    rw [List.isEmpty_iff.mp hempty] at hchild
    exact List.not_mem_nil hchild
  · cases h

theorem removeDirAll (hc : t.Consistent) {p : String} (h : t.removeDirAll cwd p = .ok t') :
    t'.Consistent := by
  unfold FileTree.removeDirAll at h
  obtain ⟨l, -, h⟩ := bind_eq_ok h
  cases h
  exact hc.eraseBelow l

end Consistent

end FileTree

/-- A file tree a file system can hold. -/
abbrev ConsistentTree := { t : FileTree // t.Consistent }

namespace ConsistentTree

/-- An edit of the tree, as a consistent tree, by an operation that keeps trees consistent. -/
def edit (t : ConsistentTree) (f : FileTree → Except IoFault FileTree)
    (hf : ∀ u u', u.Consistent → f u = .ok u' → u'.Consistent) : Except IoFault ConsistentTree :=
  match h : f t.1 with
  | .ok u => .ok ⟨u, hf t.1 u t.2 h⟩
  | .error e => .error e

/-- An edit does to the tree what the operation does. -/
theorem map_val_edit (t : ConsistentTree) (f : FileTree → Except IoFault FileTree)
    (hf : ∀ u u', u.Consistent → f u = .ok u' → u'.Consistent) :
    (t.edit f hf).map Subtype.val = f t.1 := by
  unfold edit
  split <;> rename_i h <;> exact h.symm

variable (t : ConsistentTree) (cwd : Location)

def createDir (p : String) : Except IoFault ConsistentTree :=
  t.edit (·.createDir cwd p) fun _ _ hc h => hc.createDir h

def createDirAll (p : String) : Except IoFault ConsistentTree :=
  t.edit (·.createDirAll cwd p) fun _ _ hc h => hc.createDirAll h

def writeFileWith (p : String) (content : Bytes) (mode : Nat) : Except IoFault ConsistentTree :=
  t.edit (·.writeFileWith cwd p content mode) fun _ _ hc h => hc.writeFileWith h

def appendFile (p : String) (more : Bytes) (mode : Nat) : Except IoFault ConsistentTree :=
  t.edit (·.appendFile cwd p more mode) fun _ _ hc h => hc.appendFile h

def copyFile (src dst : String) : Except IoFault ConsistentTree :=
  t.edit (·.copyFile cwd src dst) fun _ _ hc h => hc.copyFile h

def removeFile (p : String) : Except IoFault ConsistentTree :=
  t.edit (·.removeFile cwd p) fun _ _ hc h => hc.removeFile h

def removeDir (p : String) : Except IoFault ConsistentTree :=
  t.edit (·.removeDir cwd p) fun _ _ hc h => hc.removeDir h

def removeDirAll (p : String) : Except IoFault ConsistentTree :=
  t.edit (·.removeDirAll cwd p) fun _ _ hc h => hc.removeDirAll h

end ConsistentTree

end BuildRecipe
