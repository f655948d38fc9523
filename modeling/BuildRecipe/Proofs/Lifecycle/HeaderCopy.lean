import BuildRecipe.Proofs.FileTree.Invariant
/-!
# Copying headers

Copying the headers a rule selects walks the source directory in name order and copies each
regular file whose name matches the pattern to the same names below the destination
(`copyHeaders`). A visited entry is a header when it is not a directory and its last name
matches (`headerOf`); its copy goes to `headerTarget`, through the folders `copyFolders`.

The copy of one header makes the target's folders and sets the target to the source's node.
When the copies stay apart (`CopiesApart`: no copy's folder holds a file, no copy lands on a
directory or on another copy's folder, nothing is written at or below the source), the walk
never sees a copy, so it runs as the copies of the source's listing, one after another, and
what they have done is described by `CopyProgress`.

Main statements: a pattern that does not compile writes nothing, a source that is not a
directory gives no copies, and otherwise, with the copies apart, the copies made are exactly
the headers below the source, in increasing path order, each holding its source's node, and a
second copy answers the same and changes nothing (`copyHeaders_copies_headers`). Without the
copies apart the copy can fail, or copy its own copies the next time
(`copyHeaders_blocked_or_nested`).
-/

namespace BuildRecipe

namespace FileTree

/-- The names leading from a directory to a file below it whose name the pattern matches. -/
def IsHeader (t : FileTree) (pat : Glob.Pattern) (l : Location) (r : List String) : Prop :=
  (∃ n, t.get? (l ++ r) = some n ∧ n.isDirectory = false) ∧
    ∃ name, r.getLast? = some name ∧ pat.matches name = true

variable {t : FileTree}

theorem IsHeader.ne_nil {pat : Glob.Pattern} {l r : Location} (h : t.IsHeader pat l r) :
    r ≠ [] := by
  obtain ⟨-, name, hname, -⟩ := h
  rintro rfl
  cases hname

/-- The names of a header of a consistent tree are plain. -/
theorem IsHeader.plain (hc : t.Consistent) {pat : Glob.Pattern} {l r : Location}
    (h : t.IsHeader pat l r) : ∀ a ∈ r, Path.IsPlainName a := by
  obtain ⟨n, hn, -⟩ := h.1
  have hne : l ++ r ≠ [] := by simp [h.ne_nil]
  exact fun a ha => hc.plain_of_get? hn hne a (List.mem_append_right _ ha)

/-- Resolution that succeeded succeeds, to the same place, in a tree that kept every
directory. -/
theorem resolve_of_dirs_kept {u : FileTree} {cwd : Location} {p : String} {r : Resolved}
    (h : t.resolve cwd p = .ok r)
    (hk : ∀ x, t.get? x = some .directory → u.get? x = some .directory) :
    u.resolve cwd p = .ok r := by
  obtain ⟨hd, -⟩ := resolve_location h
  obtain ⟨hdirs, hl⟩ := descend_eq_ok_iff.mp hd
  have hd' : u.descend cwd (Path.components p) = .ok r.location :=
    descend_eq_ok_iff.mpr ⟨fun x hx => hk x (hdirs x hx), hl⟩
  unfold resolve at h ⊢
  split
  · rename_i hp
    rw [if_pos hp] at h
    exact h
  · rename_i hp
    rw [if_neg hp, hd] at h
    rw [hd']
    exact h

/-- The stops before the end of plain names taken from a location are the locations on the
way, short of the end. -/
theorem mem_stops_map_normal {here x : Location} {names : List String}
    (hx : x ∈ (stops here (names.map .normal)).dropLast) :
    x <+: here ++ names ∧ x ≠ here ++ names := by
  induction names generalizing here with
  | nil => simp at hx
  | cons n names ih =>
    rw [List.map_cons, stops_cons_of_ne_root _ (by simp),
      List.dropLast_cons_of_ne_nil (stops_ne_nil _ _)] at hx
    rcases List.mem_cons.mp hx with rfl | hx
    · exact ⟨List.prefix_append _ _, by simp⟩
    · obtain ⟨hpre, hne⟩ := ih hx
      simp only [Component.enter, List.append_assoc, List.singleton_append] at hpre hne
      exact ⟨hpre, hne⟩

/-- A path built from a directory's path by the names of an entry below it resolves to the
entry, without asking for a directory. -/
theorem resolve_foldl_join (hwf : t.WellFormed) {cwd l : Location} {src : String} {w : Bool}
    (hsrc : t.resolve cwd src = .ok ⟨l, w⟩) {s : List String} (hne : s ≠ [])
    (hp : ∀ a ∈ s, Path.IsPlainName a) {node : Node} (hget : t.get? (l ++ s) = some node) :
    t.resolve cwd (s.foldl Path.join src) = .ok ⟨l ++ s, false⟩ := by
  obtain ⟨hd, -⟩ := resolve_location hsrc
  obtain ⟨hdirs, hl⟩ := descend_eq_ok_iff.mp hd
  have hK := Path.components_foldl_join src hp
  -- every stop is a stop of the source or a location on the way to the entry
  have hdesc : t.descend cwd (Path.components (s.foldl Path.join src)) = .ok (l ++ s) := by
    refine descend_eq_ok_iff.mpr ⟨fun x hx => ?_, ?_⟩
    · rw [hK, stops_append, ← hl, List.dropLast_append_of_ne_nil (stops_ne_nil _ _)] at hx
      rcases List.mem_append.mp hx with hx | hx
      · exact hdirs x hx
      · obtain ⟨hpre, hxne⟩ := mem_stops_map_normal hx
        exact hwf.get?_of_isPrefix hget hpre hxne
    · rw [hK, List.foldl_append, ← hl, Path.foldl_enter_normal]
  -- the path ends in the entry's last name
  obtain ⟨s', a, rfl⟩ := List.eq_nil_or_concat s |>.resolve_left hne
  simp only [List.concat_eq_append] at hK hdesc hp ⊢
  have ha : Path.IsPlainName a := hp a (by simp)
  have hasks : asksForDirectory ((s' ++ [a]).foldl Path.join src) = false := by
    rw [List.foldl_append, List.foldl_cons, List.foldl_nil]
    exact Path.asksForDirectory_eq_false ha (Path.suffix_join _ (Path.isAbsolute_plain ha))
  have htext : (s' ++ [a]).foldl Path.join src ≠ "" := by
    refine ne_empty_of_components_ne_nil ?_
    rw [hK]
    simp
  have hden : Path.denote cwd ((s' ++ [a]).foldl Path.join src) = l ++ (s' ++ [a]) := by
    rw [Path.denote, hK, List.foldl_append, ← hl, Path.foldl_enter_normal]
  rw [← hden] at hdesc ⊢
  rw [resolve_of_descend htext hdesc, hasks]

theorem isDir_of_directoryAt {cwd l : Location} {p : String} (h : t.directoryAt cwd p = .ok l) :
    t.isDir cwd p = true := by
  unfold directoryAt at h
  cases hr : t.resolve cwd p with
  | error e => simp [hr, bind, Except.bind] at h
  | ok r =>
    simp only [hr, bind, Except.bind] at h
    have hg : t.get? r.location = some .directory := by
      split at h
      · cases h
      · assumption
      · cases h
    simp [isDir, metadata, hr, hg, bind, Except.bind, pure, Except.pure, Node.isDirectory]

theorem resolve_of_directoryAt {cwd l : Location} {p : String} (h : t.directoryAt cwd p = .ok l) :
    ∃ w, t.resolve cwd p = .ok ⟨l, w⟩ := by
  unfold directoryAt at h
  cases hr : t.resolve cwd p with
  | error e => simp [hr, bind, Except.bind] at h
  | ok r =>
    simp only [hr, bind, Except.bind] at h
    split at h
    · cases h
    · cases h
      exact ⟨r.wantsDirectory, rfl⟩
    · cases h

/-- A directory is still found where it was in a tree that kept every directory. -/
theorem directoryAt_of_dirs_kept {u : FileTree} {cwd l : Location} {p : String}
    (h : t.directoryAt cwd p = .ok l)
    (hk : ∀ x, t.get? x = some .directory → u.get? x = some .directory) :
    u.directoryAt cwd p = .ok l := by
  obtain ⟨w, hr⟩ := resolve_of_directoryAt h
  have hl := hk l (get?_of_directoryAt h)
  simp [directoryAt, resolve_of_dirs_kept hr hk, hl, bind, Except.bind, pure, Except.pure]

/-- A successful copy sets where the target path leads. -/
theorem copyFile_ok {cwd : Location} {src dst : String} {t' : FileTree}
    (h : t.copyFile cwd src dst = .ok t') : ∃ n, t' = t.set (Path.denote cwd dst) n := by
  unfold copyFile at h
  cases hm : t.metadata cwd src with
  | error e => simp [hm, bind, Except.bind] at h
  | ok node =>
    cases hs : t.resolve cwd src with
    | error e =>
      simp only [hm, hs, bind, Except.bind] at h
      split at h <;> cases h
    | ok rs =>
      cases hr : t.resolve cwd dst with
      | error e =>
        simp only [hm, hs, hr, bind, Except.bind] at h
        split at h <;> cases h
      | ok r =>
        rw [← (resolve_location hr).2]
        simp only [hm, hs, hr, bind, Except.bind] at h
        -- a copy that succeeds sets the target's location, truncated or to the source's node
        split at h
        · cases h
        · split at h
          · cases h
          · split at h
            · cases h
            · split at h
              · cases h
                exact ⟨_, rfl⟩
              · cases h
                exact ⟨_, rfl⟩

/-- Folders made keep every directory: a folder made is one, and the rest is as it was. -/
theorem dirs_of_made {u t' : FileTree} {xs : List Location}
    (hfold : ∀ x ∈ xs, t'.get? x = some .directory) (hframe : ∀ y, y ∉ xs → t'.get? y = u.get? y) :
    ∀ x, u.get? x = some .directory → t'.get? x = some .directory := by
  intro x hx
  by_cases hxf : x ∈ xs
  · exact hfold x hxf
  · rw [hframe x hxf]
    exact hx

/-- Making the folders of a path whose stops lie outside `l` keeps the entries at and below
`l`. -/
theorem subtree_createDirAll {u t' : FileTree} {cwd l : Location} {q : String}
    (hcd : u.createDirAll cwd q = .ok t') (hout : ∀ x ∈ stops cwd (Path.components q), ¬ l <+: x) :
    t'.subtree l = u.subtree l :=
  createDirAll_induction (fun v => v.subtree l = u.subtree l) hcd
    (fun _ x hx _ hv => (subtree_set (hout x hx) _).trans hv) rfl

/-- Making the folders of a path keeps what the entries at a location other than its stops
hold. -/
theorem entries_createDirAll {u t' : FileTree} {cwd x : Location} {q : String} {n : Node}
    (hcd : u.createDirAll cwd q = .ok t') (hx : x ∉ stops cwd (Path.components q))
    (h : ∀ e ∈ u.entries, e.1 = x → e.2 = n) : ∀ e ∈ t'.entries, e.1 = x → e.2 = n :=
  createDirAll_induction (fun v => ∀ e ∈ v.entries, e.1 = x → e.2 = n) hcd
    (fun _ _ hy _ hv => entries_set_ne _ (fun hyx => hx (hyx ▸ hy)) hv) h

end FileTree

-- ============================================================================
-- One header and its copy
-- ============================================================================

/-- The names leading to a visited entry that is a header: not a directory, with a last name
the pattern matches. -/
def headerOf (pat : Glob.Pattern) (e : WalkEntry) : Option (List String) :=
  if e.isDirectory then none
  else
    match e.below.getLast? with
    | some name => if pat.matches name then some e.below else none
    | none => none

/-- Where the copy of the header at the names `r` below the source goes. -/
def headerTarget (dst : String) (r : List String) : String := Path.join dst ("/".intercalate r)

/-- The locations the copy of the header at `r` resolves through: the stops of the target's
folder, each a folder the copy makes. -/
def copyFolders (cwd : Location) (dst : String) (r : List String) : List Location :=
  FileTree.stops cwd (Path.components dst ++ r.dropLast.map .normal)

theorem headerOf_eq_some {pat : Glob.Pattern} {e : WalkEntry} {r : List String}
    (h : headerOf pat e = some r) :
    e.isDirectory = false ∧ e.below = r ∧ ∃ name, r.getLast? = some name ∧ pat.matches name = true := by
  unfold headerOf at h
  split at h
  · cases h
  · rename_i hd
    split at h
    · rename_i name hname
      split at h
      · rename_i hm
        cases h
        exact ⟨by simpa using hd, rfl, name, hname, hm⟩
      · cases h
    · cases h

section Target

variable {cwd : Location} {dst : String} {r : List String}

theorem components_headerTarget (hne : r ≠ []) (hp : ∀ a ∈ r, Path.IsPlainName a) :
    Path.components (headerTarget dst r) =
      (Path.components dst ++ r.dropLast.map .normal) ++ [.normal (r.getLast hne)] := by
  rw [headerTarget, Path.components_join_intercalate dst hne hp, List.append_assoc]
  congr 1
  conv_lhs => rw [← List.dropLast_concat_getLast hne]
  simp

theorem denote_headerTarget (hne : r ≠ []) (hp : ∀ a ∈ r, Path.IsPlainName a) :
    Path.denote cwd (headerTarget dst r) = Path.denote cwd dst ++ r :=
  Path.denote_join_intercalate cwd dst hne hp

/-- The target's folder is the destination and the header's names but the last. -/
theorem parent?_headerTarget (cwd : Location) (hne : r ≠ []) (hp : ∀ a ∈ r, Path.IsPlainName a) :
    ∃ q, Path.parent? (headerTarget dst r) = some q ∧
      FileTree.stops cwd (Path.components q) = copyFolders cwd dst r := by
  have hK : Path.components (headerTarget dst r) =
      (Path.components dst ++ r.dropLast.map .normal) ++ [.normal (r.getLast hne)] :=
    components_headerTarget hne hp
  have hroot : Path.components (headerTarget dst r) ≠ [.root] := by
    intro h
    have hlast := congrArg List.getLast? (hK.symm.trans h)
    simp at hlast
  obtain ⟨q, hq⟩ := Path.parent?_isSome (by simp [hK]) hroot
  refine ⟨q, hq, ?_⟩
  rw [Path.components_parent? hq, hK, List.dropLast_concat]
  rfl

/-- With the folders made, the target resolves where the destination and the header's names
lead, without asking for a directory. -/
theorem resolve_headerTarget {u : FileTree} (hne : r ≠ []) (hp : ∀ a ∈ r, Path.IsPlainName a)
    (hdirs : ∀ x ∈ copyFolders cwd dst r, u.get? x = some .directory) :
    u.resolve cwd (headerTarget dst r) = .ok ⟨Path.denote cwd dst ++ r, false⟩ := by
  have hK : Path.components (headerTarget dst r) =
      (Path.components dst ++ r.dropLast.map .normal) ++ [.normal (r.getLast hne)] :=
    components_headerTarget hne hp
  have hdesc : u.descend cwd (Path.components (headerTarget dst r)) =
      .ok (Path.denote cwd (headerTarget dst r)) := by
    refine FileTree.descend_eq_ok_iff.mpr ⟨fun x hx => ?_, rfl⟩
    rw [hK, FileTree.stops_append_single _ _ (by simp), List.dropLast_concat] at hx
    exact hdirs x hx
  have htext : headerTarget dst r ≠ "" :=
    FileTree.ne_empty_of_components_ne_nil (by simp [hK])
  -- the target ends in the header's last name
  have hlast : (r.getLast hne).toList <:+ (headerTarget dst r).toList := by
    have hsuf := Path.suffix_join dst (Path.isAbsolute_intercalate hne hp)
    refine List.IsSuffix.trans ?_ hsuf
    conv_rhs => rw [← List.dropLast_concat_getLast hne]
    exact Path.suffix_intercalate_concat _ _
  rw [FileTree.resolve_of_descend htext hdesc,
    Path.asksForDirectory_eq_false (hp _ (List.getLast_mem hne)) hlast, denote_headerTarget hne hp]

end Target

section Run

variable {pat : Glob.Pattern} {dst : String}

theorem copyMatching_run_of_none {e : WalkEntry} (h : headerOf pat e = none) (m : Machine) :
    (copyMatching pat dst e).run m = (.ok [], m) := by
  unfold headerOf at h
  unfold copyMatching
  by_cases hd : e.isDirectory = true
  · simp only [hd, if_true]
    rfl
  · simp only [hd, Bool.false_eq_true, if_false] at h ⊢
    cases hl : e.below.getLast? with
    | none => rfl
    | some name =>
      simp only [hl] at h ⊢
      by_cases hm : pat.matches name = true
      · simp [hm] at h
      · simp only [hm, Bool.not_false, if_true]
        rfl

/-- The copy of a header: its folders are made, failing as an I/O error, then the file is
copied, failing as a packaging error, and the copy's path is answered. -/
theorem copyMatching_run_of_some {e : WalkEntry} {r : List String} (h : headerOf pat e = some r)
    {q : String} (hq : Path.parent? (headerTarget dst r) = some q) (m : Machine) :
    (copyMatching pat dst e).run m =
      match m.files.createDirAll m.cwd q with
      | .error f => (.error (Error.ofFault f), m)
      | .ok t' =>
        match t'.copyFile m.cwd e.path (headerTarget dst r) with
        | .error f => (.error (.packaging ("Failed to copy " ++ e.path ++ " to " ++
            headerTarget dst r ++ ": " ++ f.message)), { m with files := t' })
        | .ok t'' => (.ok [headerTarget dst r], { m with files := t'' }) := by
  obtain ⟨hd, hb, name, hname, hm⟩ := headerOf_eq_some h
  unfold copyMatching
  simp only [hd, Bool.false_eq_true, if_false, hb, hname, hm, Bool.not_true]
  rw [← headerTarget, hq]
  simp only [Act.run_bind, Act.run_change]
  cases m.files.createDirAll m.cwd q with
  | error f => rfl
  | ok t' =>
    dsimp only
    cases t'.copyFile m.cwd e.path (headerTarget dst r) with
    | error f => rfl
    | ok t'' => rfl

end Run

-- ============================================================================
-- Copies that stay apart, and what copying has done so far
-- ============================================================================

/-- The copies of the headers below `l` into `dst` stay apart: no folder a copy needs holds a
file, no copy lands on a directory or on a folder a copy needs, and no folder or copy lies at
or below the source. -/
structure CopiesApart (t : FileTree) (cwd : Location) (pat : Glob.Pattern) (l : Location)
    (dst : String) : Prop where
  folders_clear : ∀ r, t.IsHeader pat l r → ∀ x ∈ copyFolders cwd dst r, t.NoFileAt x
  target_not_dir : ∀ r, t.IsHeader pat l r → t.get? (Path.denote cwd dst ++ r) ≠ some .directory
  target_not_folder : ∀ r r', t.IsHeader pat l r → t.IsHeader pat l r' →
    Path.denote cwd dst ++ r ∉ copyFolders cwd dst r'
  folders_outside : ∀ r, t.IsHeader pat l r → ∀ x ∈ copyFolders cwd dst r, ¬ l <+: x
  target_outside : ∀ r, t.IsHeader pat l r → ¬ l <+: Path.denote cwd dst ++ r

theorem CopiesApart.target_ne_source {t : FileTree} {cwd l : Location} {pat : Glob.Pattern}
    {dst : String} (ha : CopiesApart t cwd pat l dst) {r : List String} (hr : t.IsHeader pat l r) :
    Path.denote cwd dst ++ r ≠ l ++ r := fun h =>
  ha.target_outside r hr (h ▸ List.prefix_append l r)

/-- What copying the headers `done` has left of the tree `t` copying started from: the source's
entries as they were, every directory still one, each copy's folders directories, each copy
holding its source's node at every entry of its location, and nothing else changed. -/
structure CopyProgress (t : FileTree) (cwd l : Location) (dst : String)
    (done : List (List String)) (u : FileTree) : Prop where
  source : u.subtree l = t.subtree l
  dirs : ∀ x, t.get? x = some .directory → u.get? x = some .directory
  folders : ∀ r ∈ done, ∀ x ∈ copyFolders cwd dst r, u.get? x = some .directory
  copies : ∀ r ∈ done, ∃ n, t.get? (l ++ r) = some n ∧ u.get? (Path.denote cwd dst ++ r) = some n ∧
    ∀ e ∈ u.entries, e.1 = Path.denote cwd dst ++ r → e.2 = n
  rest : ∀ x, (∀ r ∈ done, x ∉ copyFolders cwd dst r ∧ x ≠ Path.denote cwd dst ++ r) →
    u.get? x = t.get? x

namespace CopyProgress

variable {t u : FileTree} {cwd l : Location} {pat : Glob.Pattern} {dst : String}
  {done : List (List String)} {r : List String}

theorem start : CopyProgress t cwd l dst [] t :=
  ⟨rfl, fun _ h => h, fun _ h => (List.not_mem_nil h).elim, fun _ h => (List.not_mem_nil h).elim,
    fun _ _ => rfl⟩

/-- The source still reads as it did. -/
theorem get?_source (hp : CopyProgress t cwd l dst done u) (r : List String) :
    u.get? (l ++ r) = t.get? (l ++ r) :=
  FileTree.get?_eq_of_subtree hp.source (List.prefix_append l r)

section Next

variable (ha : CopiesApart t cwd pat l dst) (hdone : ∀ r' ∈ done, t.IsHeader pat l r')
  (hp : CopyProgress t cwd l dst done u) (hr : t.IsHeader pat l r)
include ha hdone hp hr

/-- No folder the next copy needs holds a file: it is a folder made before, or as it was. -/
theorem noFileAt_folders : ∀ x ∈ copyFolders cwd dst r, u.NoFileAt x := by
  intro x hx
  by_cases hmade : ∃ r' ∈ done, x ∈ copyFolders cwd dst r'
  · obtain ⟨r', hr', hx'⟩ := hmade
    exact FileTree.noFileAt_iff.mpr (.inr (hp.folders r' hr' x hx'))
  by_cases hcopy : ∃ r' ∈ done, x = Path.denote cwd dst ++ r'
  · obtain ⟨r', hr', rfl⟩ := hcopy
    exact absurd hx (ha.target_not_folder r' r (hdone r' hr') hr)
  -- untouched so far
  have hx' : u.get? x = t.get? x := hp.rest x fun r' hr' =>
    ⟨fun h => hmade ⟨r', hr', h⟩, fun h => hcopy ⟨r', hr', h⟩⟩
  intro n hn
  exact ha.folders_clear r hr x hx n (hx' ▸ hn)

/-- The next copy does not land on a directory: its location is a copy made before, or as it
was. -/
theorem target_ne_dir : u.get? (Path.denote cwd dst ++ r) ≠ some .directory := by
  by_cases hmade : ∃ r' ∈ done, Path.denote cwd dst ++ r ∈ copyFolders cwd dst r'
  · obtain ⟨r', hr', hx'⟩ := hmade
    exact absurd hx' (ha.target_not_folder r r' hr (hdone r' hr'))
  by_cases hcopy : ∃ r' ∈ done, Path.denote cwd dst ++ r = Path.denote cwd dst ++ r'
  · obtain ⟨r', hr', hrr⟩ := hcopy
    obtain ⟨n, hn, hget, -⟩ := hp.copies r' hr'
    obtain ⟨n', hn', hnd⟩ := (hdone r' hr').1
    rw [hrr, hget]
    intro h
    cases h
    rw [hn] at hn'
    cases hn'
    simp [Node.isDirectory] at hnd
  rw [hp.rest _ fun r' hr' => ⟨fun h => hmade ⟨r', hr', h⟩, fun h => hcopy ⟨r', hr', h⟩⟩]
  exact ha.target_not_dir r hr

/-- One more header copied: with its folders made and its copy set to its source's node, the
progress covers it too. -/
theorem step {q : String} (hstops : FileTree.stops cwd (Path.components q) = copyFolders cwd dst r)
    {t' : FileTree} (hcd : u.createDirAll cwd q = .ok t')
    (hfold : ∀ x ∈ copyFolders cwd dst r, t'.get? x = some .directory)
    (hframe : ∀ y, y ∉ copyFolders cwd dst r → t'.get? y = u.get? y)
    {n : Node} (hn : t.get? (l ++ r) = some n) :
    CopyProgress t cwd l dst (done ++ [r]) (t'.set (Path.denote cwd dst ++ r) n) := by
  have hall : ∀ r' ∈ done ++ [r], t.IsHeader pat l r' := by
    intro r' hr'
    rcases List.mem_append.mp hr' with h | h
    · exact hdone r' h
    · rw [List.mem_singleton.mp h]
      exact hr
  have hTne : Path.denote cwd dst ++ r ≠ [] := by simp [hr.ne_nil]
  -- the folders made keep every directory and the source
  have hku := FileTree.dirs_of_made hfold hframe
  have hsrc' : t'.subtree l = u.subtree l :=
    FileTree.subtree_createDirAll hcd (hstops ▸ ha.folders_outside r hr)
  refine ⟨?_, ?_, ?_, ?_, ?_⟩
  · rw [FileTree.subtree_set (ha.target_outside r hr), hsrc', hp.source]
  · intro x hx
    have hxT : x ≠ Path.denote cwd dst ++ r := fun h => ha.target_not_dir r hr (h ▸ hx)
    rw [FileTree.get?_set_ne _ _ hxT]
    exact hku x (hp.dirs x hx)
  · intro r' hr' x hx
    have hxT : x ≠ Path.denote cwd dst ++ r := fun h =>
      ha.target_not_folder r r' hr (hall r' hr') (h ▸ hx)
    rw [FileTree.get?_set_ne _ _ hxT]
    rcases List.mem_append.mp hr' with hr' | hr'
    · exact hku x (hp.folders r' hr' x hx)
    · rw [List.mem_singleton.mp hr'] at hx
      exact hfold x hx
  · intro r' hr'
    by_cases hrr : Path.denote cwd dst ++ r' = Path.denote cwd dst ++ r
    · -- the copy just made
      rw [hrr]
      exact ⟨n, List.append_cancel_left hrr ▸ hn, FileTree.get?_set_self _ _ _ hTne,
        FileTree.entries_set_self _ _⟩
    · -- a copy made before, which the folders and the copy just made leave alone
      have hrd : r' ∈ done := by
        rcases List.mem_append.mp hr' with h | h
        · exact h
        · exact absurd (by rw [List.mem_singleton.mp h]) hrr
      obtain ⟨n', hn', hget', hent'⟩ := hp.copies r' hrd
      have hnf : Path.denote cwd dst ++ r' ∉ copyFolders cwd dst r :=
        ha.target_not_folder r' r (hdone r' hrd) hr
      refine ⟨n', hn', ?_, FileTree.entries_set_ne _ (Ne.symm hrr)
        (FileTree.entries_createDirAll hcd (hstops ▸ hnf) hent')⟩
      rw [FileTree.get?_set_ne _ _ hrr, hframe _ hnf, hget']
  · intro x hx
    have hxr := hx r (List.mem_append_right _ (List.mem_singleton_self r))
    rw [FileTree.get?_set_ne _ _ hxr.2, hframe x hxr.1]
    exact hp.rest x fun r' hr' => hx r' (List.mem_append_left _ hr')

end Next

end CopyProgress

-- ============================================================================
-- The copies of the source's listing, one after another
-- ============================================================================

section Copies

variable {t u : FileTree} {cwd l : Location} {pat : Glob.Pattern} {src dst : String}
  {done : List (List String)}

/-- An entry of the source's listing: the names leading to it, the path built from them, and
whether it is a directory. -/
def Listed (t : FileTree) (l : Location) (src : String) (e : WalkEntry) : Prop :=
  ∃ s node, t.get? (l ++ s) = some node ∧ e = ⟨s.foldl Path.join src, s, node.isDirectory⟩

theorem isHeader_of_headerOf {e : WalkEntry} (he : Listed t l src e) {r : List String}
    (h : headerOf pat e = some r) : e.path = r.foldl Path.join src ∧ t.IsHeader pat l r := by
  obtain ⟨s, node, hget, rfl⟩ := he
  obtain ⟨hd, hb, hname⟩ := headerOf_eq_some h
  dsimp only at hd hb
  subst hb
  exact ⟨rfl, ⟨node, hget, hd⟩, hname⟩

/-- A listed header's source resolves to its entry, without asking for a directory, in every
tree that kept the directories of the tree it was listed from. -/
theorem resolve_source (hc : t.Consistent) {cwd : Location} (hsrc : t.directoryAt cwd src = .ok l)
    {e : WalkEntry} (he : Listed t l src e) {r : List String} (hh : headerOf pat e = some r)
    (hk : ∀ x, t.get? x = some .directory → u.get? x = some .directory) :
    u.resolve cwd e.path = .ok ⟨l ++ r, false⟩ := by
  obtain ⟨hpath, hr⟩ := isHeader_of_headerOf he hh
  obtain ⟨n, hn, -⟩ := hr.1
  obtain ⟨w, hres⟩ := FileTree.resolve_of_directoryAt hsrc
  rw [hpath]
  exact FileTree.resolve_of_dirs_kept
    (FileTree.resolve_foldl_join hc.wellFormed hres hr.ne_nil (hr.plain hc) hn) hk

variable (hc : t.Consistent) (hsrc : t.directoryAt cwd src = .ok l)
  (hcwd : t.get? cwd = some .directory) (ha : CopiesApart t cwd pat l dst)
include hc hsrc hcwd ha

/-- The next header's copy succeeds: it makes the folders and copies the source's node, and
the progress covers it. -/
theorem copyMatching_run_next (hdone : ∀ r' ∈ done, t.IsHeader pat l r')
    (hp : CopyProgress t cwd l dst done u) {e : WalkEntry} (he : Listed t l src e)
    {r : List String} (hh : headerOf pat e = some r) (m : Machine) (hm : m.files = u)
    (hmc : m.cwd = cwd) :
    ∃ u', (copyMatching pat dst e).run m = (.ok [headerTarget dst r], { m with files := u' }) ∧
      CopyProgress t cwd l dst (done ++ [r]) u' := by
  obtain ⟨-, hr⟩ := isHeader_of_headerOf he hh
  have hne := hr.ne_nil
  have hpl := hr.plain hc
  obtain ⟨n, hn, hnd⟩ := hr.1
  obtain ⟨q, hq, hstops⟩ := parent?_headerTarget cwd hne hpl
  -- the folders are made
  have hclear := hp.noFileAt_folders ha hdone hr
  rw [← hstops] at hclear
  obtain ⟨t', hcd, hfold, hframe⟩ := FileTree.createDirAll_stops (hp.dirs cwd hcwd) hclear
  rw [hstops] at hfold hframe
  -- then the source is copied to the target
  have hs := resolve_source hc hsrc he hh fun x hx =>
    FileTree.dirs_of_made hfold hframe x (hp.dirs x hx)
  have hlr : l ++ r ∉ copyFolders cwd dst r := fun h =>
    ha.folders_outside r hr _ h (List.prefix_append l r)
  have hn' : t'.get? (l ++ r) = some n := by
    rw [hframe _ hlr, hp.get?_source]
    exact hn
  have hT : Path.denote cwd dst ++ r ∉ copyFolders cwd dst r := ha.target_not_folder r r hr hr
  have htd : t'.get? (Path.denote cwd dst ++ r) ≠ some .directory := by
    rw [hframe _ hT]
    exact hp.target_ne_dir ha hdone hr
  have hcopy := FileTree.copyFile_of_resolve hs hn' hnd (resolve_headerTarget hne hpl hfold) htd
    (ha.target_ne_source hr)
  refine ⟨t'.set (Path.denote cwd dst ++ r) n, ?_, hp.step ha hdone hr hstops hcd hfold hframe hn⟩
  rw [copyMatching_run_of_some hh hq, hmc, hm, hcd]
  dsimp only
  rw [hcopy]

/-- The copies of listed entries run one after another: each header of the list is copied, its
copy's path answered, and the progress covers it. The induction is on the list. -/
theorem visitAll_copies :
    ∀ (es : List WalkEntry), (∀ e ∈ es, Listed t l src e) →
      ∀ (done : List (List String)) (u : FileTree), (∀ r ∈ done, t.IsHeader pat l r) →
      CopyProgress t cwd l dst done u → ∀ m : Machine, m.files = u → m.cwd = cwd →
      ∃ u', (Act.visitAll (copyMatching pat dst) es).run m =
          (.ok ((es.filterMap (headerOf pat)).map (headerTarget dst)), { m with files := u' }) ∧
        CopyProgress t cwd l dst (done ++ es.filterMap (headerOf pat)) u' := by
  intro es
  induction es with
  | nil =>
    intro _ done u _ hp m hm _
    subst hm
    exact ⟨m.files, rfl, by simpa using hp⟩
  | cons e es ih =>
    intro hes done u hdone hp m hm hmc
    have he := hes e List.mem_cons_self
    have hes' := fun e' he' => hes e' (List.mem_cons_of_mem _ he')
    simp only [Act.visitAll, Act.run_bind]
    cases hh : headerOf pat e with
    | none =>
      rw [copyMatching_run_of_none hh]
      obtain ⟨u', hrun, hp'⟩ := ih hes' done u hdone hp m hm hmc
      refine ⟨u', ?_, by simpa [List.filterMap_cons, hh] using hp'⟩
      simp only [hrun, List.filterMap_cons, hh]
      rfl
    | some r =>
      obtain ⟨u₁, hrun₁, hp₁⟩ := copyMatching_run_next hc hsrc hcwd ha hdone hp he hh m hm hmc
      have hdone₁ : ∀ r' ∈ done ++ [r], t.IsHeader pat l r' := by
        intro r' hr'
        rcases List.mem_append.mp hr' with h | h
        · exact hdone r' h
        · rw [List.mem_singleton.mp h]
          exact (isHeader_of_headerOf he hh).2
      obtain ⟨u', hrun, hp'⟩ := ih hes' (done ++ [r]) u₁ hdone₁ hp₁ { m with files := u₁ } rfl hmc
      refine ⟨u', ?_, by simpa [List.filterMap_cons, hh] using hp'⟩
      simp only [hrun₁, hrun, List.filterMap_cons, hh]
      rfl

/-- A header already copied is copied again without changing anything: its folders are
directories and its copy holds the source's node. -/
theorem copyMatching_run_again (hp : CopyProgress t cwd l dst done u) {e : WalkEntry} (he : Listed t l src e)
    {r : List String} (hh : headerOf pat e = some r) (hrd : r ∈ done) (m : Machine)
    (hm : m.files = u) (hmc : m.cwd = cwd) :
    (copyMatching pat dst e).run m = (.ok [headerTarget dst r], m) := by
  obtain ⟨-, hr⟩ := isHeader_of_headerOf he hh
  have hne := hr.ne_nil
  have hpl := hr.plain hc
  obtain ⟨n, hn, hnd⟩ := hr.1
  obtain ⟨q, hq, hstops⟩ := parent?_headerTarget cwd hne hpl
  have hcd : u.createDirAll cwd q = .ok u := by
    refine FileTree.createDirAll_of_dirs (hp.dirs cwd hcwd) ?_
    rw [hstops]
    exact hp.folders r hrd
  obtain ⟨n', hn', hget, hent⟩ := hp.copies r hrd
  rw [hn] at hn'
  cases hn'
  have hs := resolve_source hc hsrc he hh hp.dirs
  have htd : u.get? (Path.denote cwd dst ++ r) ≠ some .directory := by
    rw [hget]
    intro h
    cases h
    simp [Node.isDirectory] at hnd
  have hcopy := FileTree.copyFile_of_resolve hs (by rw [hp.get?_source]; exact hn) hnd
    (resolve_headerTarget hne hpl (hp.folders r hrd)) htd (ha.target_ne_source hr)
  rw [FileTree.set_of_entries hent (by simp [hne]) hget] at hcopy
  rw [copyMatching_run_of_some hh hq, hmc, hm, hcd]
  dsimp only
  rw [hcopy]
  subst hm hmc
  rfl

/-- Copying listed entries whose headers are all copied already answers the same copies and
changes nothing. -/
theorem visitAll_copies_again (hp : CopyProgress t cwd l dst done u) :
    ∀ (es : List WalkEntry), (∀ e ∈ es, Listed t l src e) →
      (∀ e ∈ es, ∀ r, headerOf pat e = some r → r ∈ done) → ∀ m : Machine, m.files = u →
      m.cwd = cwd →
      (Act.visitAll (copyMatching pat dst) es).run m =
        (.ok ((es.filterMap (headerOf pat)).map (headerTarget dst)), m) := by
  intro es
  induction es with
  | nil => intro _ _ m _ _; rfl
  | cons e es ih =>
    intro hes hcov m hm hmc
    have hes' := fun e' he' => hes e' (List.mem_cons_of_mem _ he')
    have hcov' := fun e' he' => hcov e' (List.mem_cons_of_mem _ he')
    simp only [Act.visitAll, Act.run_bind]
    cases hh : headerOf pat e with
    | none =>
      rw [copyMatching_run_of_none hh]
      simp only [ih hes' hcov' m hm hmc, List.filterMap_cons, hh]
      rfl
    | some r =>
      rw [copyMatching_run_again hc hsrc hcwd ha hp (hes e List.mem_cons_self) hh
        (hcov e List.mem_cons_self r hh) m hm hmc]
      simp only [ih hes' hcov' m hm hmc, List.filterMap_cons, hh]
      rfl

end Copies

/-- A listed entry's copy writes nothing at or below the source and keeps the working
directory, whatever machine it runs on, failed runs included. -/
theorem copyMatching_keepsBelow {t : FileTree} {cwd l : Location} {pat : Glob.Pattern}
    {src dst : String} (hc : t.Consistent) (ha : CopiesApart t cwd pat l dst) {e : WalkEntry}
    (he : Listed t l src e) : Act.KeepsBelow cwd l (copyMatching pat dst e) := by
  intro m hmc
  cases hh : headerOf pat e with
  | none =>
    rw [copyMatching_run_of_none hh]
    exact ⟨hmc, rfl⟩
  | some r =>
    obtain ⟨-, hr⟩ := isHeader_of_headerOf he hh
    have hne := hr.ne_nil
    have hpl := hr.plain hc
    obtain ⟨q, hq, hstops⟩ := parent?_headerTarget cwd hne hpl
    rw [copyMatching_run_of_some hh hq, hmc]
    cases hcd : m.files.createDirAll cwd q with
    | error f => exact ⟨hmc, rfl⟩
    | ok t' =>
      -- the folders made lie outside the source
      have hsub : t'.subtree l = m.files.subtree l :=
        FileTree.subtree_createDirAll hcd (hstops ▸ ha.folders_outside r hr)
      dsimp only
      cases hcp : t'.copyFile cwd e.path (headerTarget dst r) with
      | error f => exact ⟨rfl, hsub⟩
      | ok t'' =>
        obtain ⟨n, rfl⟩ := FileTree.copyFile_ok hcp
        refine ⟨rfl, ?_⟩
        dsimp only
        rw [denote_headerTarget hne hpl, FileTree.subtree_set (ha.target_outside r hr), hsub]

-- ============================================================================
-- The headers the copy finds
-- ============================================================================

section Found

variable {t : FileTree} {l : Location} {pat : Glob.Pattern} {src : String}

theorem listed_of_mem_sortedWalk (hwf : t.WellFormed) (hl : t.get? l = some .directory)
    {fuel : Nat} {e : WalkEntry} (h : e ∈ t.sortedWalk fuel src [] l) : Listed t l src e := by
  obtain ⟨s, n, -, -, hget, rfl⟩ := (FileTree.mem_sortedWalk_iff hwf hl).mp h
  exact ⟨s, n, hget, by simp⟩

/-- The headers of the source's listing are exactly the headers below the source. -/
theorem mem_listed_headers_iff (hwf : t.WellFormed) (hl : t.get? l = some .directory)
    {r : List String} :
    r ∈ (t.sortedWalk (2 * (t.entries.length + 1)) src [] l).filterMap (headerOf pat) ↔
      t.IsHeader pat l r := by
  constructor
  · intro h
    obtain ⟨e, he, hh⟩ := List.mem_filterMap.mp h
    exact (isHeader_of_headerOf (listed_of_mem_sortedWalk hwf hl he) hh).2
  · intro hr
    have hne := hr.ne_nil
    obtain ⟨⟨n, hn, hnd⟩, name, hname, hm⟩ := hr
    -- the header lies within the walk's depth
    have hdepth : r.length ≤ 2 * (t.entries.length + 1) := by
      have h1 := FileTree.length_le_subtree hwf hn
      have h2 : (t.subtree l).length ≤ t.entries.length := List.length_filter_le _ _
      omega
    have hmem : (⟨r.foldl Path.join src, r, n.isDirectory⟩ : WalkEntry) ∈
        t.sortedWalk (2 * (t.entries.length + 1)) src [] l :=
      (FileTree.mem_sortedWalk_iff hwf hl).mpr ⟨r, n, hne, hdepth, hn, by simp⟩
    refine List.mem_filterMap.mpr ⟨_, hmem, ?_⟩
    simp [headerOf, hnd, hname, hm]

/-- A tree that keeps the source's entries lists the source alike, with the fuel the walk takes
from either tree's size. -/
theorem sortedWalk_source_eq (hwf : t.WellFormed) {u : FileTree} (hsub : u.subtree l = t.subtree l) :
    u.sortedWalk (2 * (u.entries.length + 1)) src [] l =
      t.sortedWalk (2 * (t.entries.length + 1)) src [] l := by
  have hdepth : ∀ s n, t.get? (l ++ s) = some n → s.length ≤ (t.subtree l).length :=
    fun _ _ h => FileTree.length_le_subtree hwf h
  have hu : (t.subtree l).length ≤ 2 * (u.entries.length + 1) := by
    have := List.length_filter_le (fun e : Location × Node => l.isPrefixOf e.1) u.entries
    rw [← hsub]
    unfold FileTree.subtree
    omega
  have ht : (t.subtree l).length ≤ 2 * (t.entries.length + 1) := by
    have := List.length_filter_le (fun e : Location × Node => l.isPrefixOf e.1) t.entries
    unfold FileTree.subtree
    omega
  rw [FileTree.sortedWalk_congr hsub, FileTree.sortedWalk_fuel_eq hdepth hu,
    FileTree.sortedWalk_fuel_eq hdepth ht]

/-- The copies' paths of the listing's headers are in increasing path order. -/
theorem listed_targets_pairwise (hc : t.Consistent) (hl : t.get? l = some .directory)
    (fuel : Nat) (dst : String) :
    (((t.sortedWalk fuel src [] l).filterMap (headerOf pat)).map (headerTarget dst)).Pairwise
      fun a b => Path.lt a b = true := by
  have hlex := FileTree.sortedWalk_pairwise hc.nodup fuel src [] l
  -- a header's names are its entry's names, so the headers keep the listing's order
  have hrs : ((t.sortedWalk fuel src [] l).filterMap (headerOf pat)).Pairwise
      fun a b => List.Lex (· < ·) a b := by
    refine hlex.filterMap _ fun a a' hlt b hb b' hb' => ?_
    rw [← (headerOf_eq_some hb).2.1, ← (headerOf_eq_some hb').2.1]
    exact hlt
  refine List.pairwise_map.mpr (hrs.imp_of_mem fun {a b} ha hb hab => ?_)
  obtain ⟨ea, hea, hha⟩ := List.mem_filterMap.mp ha
  obtain ⟨eb, heb, hhb⟩ := List.mem_filterMap.mp hb
  have hra := (isHeader_of_headerOf (listed_of_mem_sortedWalk hc.wellFormed hl hea) hha).2
  have hrb := (isHeader_of_headerOf (listed_of_mem_sortedWalk hc.wellFormed hl heb) hhb).2
  exact Path.lt_join_intercalate dst hra.ne_nil hrb.ne_nil (hra.plain hc) (hrb.plain hc) hab

end Found

namespace FileTree

/-- The headers below a directory of a tree, in the order the walk lists them. -/
def headers (t : FileTree) (pat : Glob.Pattern) (l : Location) : List (List String) :=
  (t.sortedWalk (2 * (t.entries.length + 1)) "" [] l).filterMap (headerOf pat)

theorem mem_headers_iff {t : FileTree} {pat : Glob.Pattern} {l : Location} (hwf : t.WellFormed)
    (hl : t.get? l = some .directory) {r : List String} :
    r ∈ t.headers pat l ↔ t.IsHeader pat l r :=
  mem_listed_headers_iff hwf hl

end FileTree

/-- The copies stay apart when they do for each header the walk lists, which can be checked. -/
theorem CopiesApart.of_headers {t : FileTree} {cwd l : Location} {pat : Glob.Pattern}
    {dst : String} (hwf : t.WellFormed) (hl : t.get? l = some .directory)
    (hclear : ∀ r ∈ t.headers pat l, ∀ x ∈ copyFolders cwd dst r, t.NoFileAt x)
    (hdir : ∀ r ∈ t.headers pat l, t.get? (Path.denote cwd dst ++ r) ≠ some .directory)
    (hfolder : ∀ r ∈ t.headers pat l, ∀ r' ∈ t.headers pat l,
      Path.denote cwd dst ++ r ∉ copyFolders cwd dst r')
    (hfout : ∀ r ∈ t.headers pat l, ∀ x ∈ copyFolders cwd dst r, ¬ l <+: x)
    (htout : ∀ r ∈ t.headers pat l, ¬ l <+: Path.denote cwd dst ++ r) :
    CopiesApart t cwd pat l dst where
  folders_clear r hr := hclear r ((FileTree.mem_headers_iff hwf hl).mpr hr)
  target_not_dir r hr := hdir r ((FileTree.mem_headers_iff hwf hl).mpr hr)
  target_not_folder r r' hr hr' :=
    hfolder r ((FileTree.mem_headers_iff hwf hl).mpr hr) r' ((FileTree.mem_headers_iff hwf hl).mpr hr')
  folders_outside r hr := hfout r ((FileTree.mem_headers_iff hwf hl).mpr hr)
  target_outside r hr := htout r ((FileTree.mem_headers_iff hwf hl).mpr hr)

-- ============================================================================
-- Copying the headers a rule selects
-- ============================================================================

section Rule

variable (rule : HeaderRule) (S P : String) {pat : Glob.Pattern}

/-- A source that is not a directory gives no copies and writes nothing. -/
theorem copyHeaders_run_of_not_isDir (hpat : Glob.compile rule.pattern = .ok pat) (m : Machine)
    (hdir : m.files.isDir m.cwd (Path.join S rule.src) = false) :
    (copyHeaders rule S P).run m = (.ok [], m) := by
  unfold copyHeaders
  simp only [hpat]
  rw [Act.run_bind, Act.run_query]
  dsimp only
  rw [hdir]
  rfl

/-- From a source directory whose listed entries' copies keep it, the copy runs as the copies
of the source's listing. -/
theorem copyHeaders_run_of_directoryAt (hpat : Glob.compile rule.pattern = .ok pat) {m : Machine}
    {l : Location} (hdir : m.files.directoryAt m.cwd (Path.join S rule.src) = .ok l)
    (hv : ∀ e ∈ m.files.sortedWalk (2 * (m.files.entries.length + 1)) (Path.join S rule.src) [] l,
      Act.KeepsBelow m.cwd l (copyMatching pat (Path.join P rule.dst) e)) :
    (copyHeaders rule S P).run m =
      (Act.visitAll (copyMatching pat (Path.join P rule.dst))
        (m.files.sortedWalk (2 * (m.files.entries.length + 1)) (Path.join S rule.src) [] l)).run m := by
  unfold copyHeaders
  simp only [hpat]
  rw [Act.run_bind, Act.run_query]
  dsimp only
  rw [FileTree.isDir_of_directoryAt hdir]
  exact Act.walkSorted_run hdir hv

/-- Copying the headers a rule selects. A pattern that does not compile is refused and nothing
is written; a source that is not a directory gives no copies and nothing is written. Otherwise,
from a consistent tree whose working directory is a directory, and with the copies apart: the
copies made are exactly the headers below the source, their paths in increasing path order,
each copy holds its source's node, and a second copy answers the same and changes nothing. -/
theorem copyHeaders_copies_headers (rule : HeaderRule) (S P : String) (m : Machine) :
    (∀ e, Glob.compile rule.pattern = .error e →
      (copyHeaders rule S P).run m = (.error (invalidHeaderPattern rule.pattern e), m)) ∧
    (∀ pat, Glob.compile rule.pattern = .ok pat →
      m.files.isDir m.cwd (Path.join S rule.src) = false →
      (copyHeaders rule S P).run m = (.ok [], m)) ∧
    (∀ pat l, Glob.compile rule.pattern = .ok pat →
      m.files.directoryAt m.cwd (Path.join S rule.src) = .ok l →
      m.files.Consistent → m.files.get? m.cwd = some .directory →
      CopiesApart m.files m.cwd pat l (Path.join P rule.dst) →
      ∃ (rs : List (List String)) (m' : Machine), (copyHeaders rule S P).run m =
          (.ok (rs.map (headerTarget (Path.join P rule.dst))), m') ∧
        (∀ r, r ∈ rs ↔ m.files.IsHeader pat l r) ∧
        (rs.map (headerTarget (Path.join P rule.dst))).Pairwise (fun a b => Path.lt a b = true) ∧
        (∀ r ∈ rs, m'.files.get? (Path.denote m.cwd (headerTarget (Path.join P rule.dst) r)) =
          m.files.get? (l ++ r)) ∧
        (copyHeaders rule S P).run m' = (.ok (rs.map (headerTarget (Path.join P rule.dst))), m')) := by
  refine ⟨fun e h => copyHeaders_invalid rule S P e h m,
    fun pat hpat hdir => copyHeaders_run_of_not_isDir rule S P hpat m hdir, ?_⟩
  intro pat l hpat hdir hc hcwd ha
  have hl := FileTree.get?_of_directoryAt hdir
  -- the source's listing, each entry of which is copied apart from the source
  have hlisted : ∀ e ∈ m.files.sortedWalk (2 * (m.files.entries.length + 1)) (Path.join S rule.src)
      [] l, Listed m.files l (Path.join S rule.src) e :=
    fun e he => listed_of_mem_sortedWalk hc.wellFormed hl he
  have hkeeps := fun e he => copyMatching_keepsBelow hc ha (hlisted e he)
  obtain ⟨u', hrun, hp⟩ := visitAll_copies hc hdir hcwd ha _ hlisted [] m.files
    (fun _ h => (List.not_mem_nil h).elim) CopyProgress.start m rfl rfl
  rw [List.nil_append] at hp
  refine ⟨_, { m with files := u' }, (copyHeaders_run_of_directoryAt rule S P hpat hdir hkeeps).trans hrun,
    fun r => mem_listed_headers_iff hc.wellFormed hl, listed_targets_pairwise hc hl _ _, ?_, ?_⟩
  · intro r hr
    obtain ⟨n, hn, hget, -⟩ := hp.copies r hr
    have hr' := (mem_listed_headers_iff hc.wellFormed hl).mp hr
    rw [denote_headerTarget hr'.ne_nil (hr'.plain hc), hn]
    exact hget
  · -- the second copy finds the source and its listing as they were, every header copied
    set m' : Machine := { m with files := u' } with hm'
    have hsame : m'.files.sortedWalk (2 * (m'.files.entries.length + 1)) (Path.join S rule.src) [] l =
        m.files.sortedWalk (2 * (m.files.entries.length + 1)) (Path.join S rule.src) [] l :=
      sortedWalk_source_eq hc.wellFormed hp.source
    have hdir' : m'.files.directoryAt m'.cwd (Path.join S rule.src) = .ok l :=
      FileTree.directoryAt_of_dirs_kept hdir hp.dirs
    have hkeeps' : ∀ e ∈ m'.files.sortedWalk (2 * (m'.files.entries.length + 1))
        (Path.join S rule.src) [] l, Act.KeepsBelow m'.cwd l (copyMatching pat (Path.join P rule.dst) e) := by
      rw [hsame]
      exact hkeeps
    rw [copyHeaders_run_of_directoryAt rule S P hpat hdir' hkeeps', hsame]
    exact visitAll_copies_again hc hdir hcwd ha hp _ hlisted
      (fun e he r hh => List.mem_filterMap.mpr ⟨e, he, hh⟩) m' rfl rfl

end Rule

/-- The pattern `*.h`, compiled. -/
def headerGlob : Glob.Pattern := ⟨[.anySequence, .char '.', .char 'h'], false⟩

/-- The `*.h` files of `inc` copied to `include/fossil/media`. -/
def sampleHeaderRule : HeaderRule := { src := "inc" }

/-- A source holding a header, a header in a subfolder made before it and a file that is not a
header, and a package folder apart from it. -/
def headerSourceMachine : Machine :=
  { files := ⟨[(["s"], .directory), (["s", "inc"], .directory), (["s", "inc", "sub"], .directory),
      (["s", "inc", "sub", "a.h"], .file "a" 420), (["s", "inc", "notes.txt"], .file "n" 420),
      (["s", "inc", "b.h"], .file "b" 420), (["p"], .directory)]⟩ }

/-- Copying the sample's headers answers them in path order, and copying again changes
nothing. -/
theorem sample_headers_copied_twice :
    ∃ m', (copyHeaders sampleHeaderRule "/s" "/p").run headerSourceMachine =
        (.ok ["/p/include/fossil/media/b.h", "/p/include/fossil/media/sub/a.h"], m') ∧
      (copyHeaders sampleHeaderRule "/s" "/p").run m' =
        (.ok ["/p/include/fossil/media/b.h", "/p/include/fossil/media/sub/a.h"], m') := by
  have hpat : Glob.compile sampleHeaderRule.pattern = .ok headerGlob := by decide +kernel
  have hdir : headerSourceMachine.files.directoryAt headerSourceMachine.cwd
      (Path.join "/s" sampleHeaderRule.src) = .ok ["s", "inc"] := by decide +kernel
  have hc : headerSourceMachine.files.Consistent := by decide +kernel
  have hcwd : headerSourceMachine.files.get? headerSourceMachine.cwd = some .directory := by
    decide +kernel
  have hl : headerSourceMachine.files.get? ["s", "inc"] = some .directory := by decide +kernel
  have ha : CopiesApart headerSourceMachine.files headerSourceMachine.cwd headerGlob ["s", "inc"]
      (Path.join "/p" sampleHeaderRule.dst) :=
    CopiesApart.of_headers hc.wellFormed hl (by decide +kernel) (by decide +kernel)
      (by decide +kernel) (by decide +kernel) (by decide +kernel)
  obtain ⟨rs, m', hrun, -, -, -, hagain⟩ :=
    (copyHeaders_copies_headers sampleHeaderRule "/s" "/p" headerSourceMachine).2.2 headerGlob
      ["s", "inc"] hpat hdir hc hcwd ha
  -- the answer, evaluated, names the two headers
  have hlist : ((copyHeaders sampleHeaderRule "/s" "/p").run headerSourceMachine).1 =
      .ok ["/p/include/fossil/media/b.h", "/p/include/fossil/media/sub/a.h"] := by decide +kernel
  rw [hrun] at hlist
  have hrs : rs.map (headerTarget (Path.join "/p" sampleHeaderRule.dst)) =
      ["/p/include/fossil/media/b.h", "/p/include/fossil/media/sub/a.h"] := by
    simpa using hlist
  rw [hrs] at hrun hagain
  exact ⟨m', hrun, hagain⟩

/-- A package folder whose `include` is a file. -/
def blockedHeaderMachine : Machine :=
  { files := ⟨[(["s"], .directory), (["s", "inc"], .directory), (["s", "inc", "a.h"], .file "a" 420),
      (["p"], .directory), (["p", "include"], .file "x" 420)]⟩ }

/-- A source holding one header. -/
def nestedHeaderMachine : Machine :=
  { files := ⟨[(["s"], .directory), (["s", "inc"], .directory), (["s", "inc", "a.h"], .file "a" 420)]⟩ }

/-- The `*.h` files of `inc` copied into `inc/x`, inside the source. -/
def nestedHeaderRule : HeaderRule := { src := "inc", dst := "inc/x" }

/-- Without the copies apart, copying fails or copies its own copies: a file where a folder of
the destination goes stops it with an I/O error though the source is a directory holding a
header, and a destination inside the source is walked by the next copy, which copies the copy
again and answers more than the first. -/
theorem copyHeaders_blocked_or_nested :
    blockedHeaderMachine.files.isDir blockedHeaderMachine.cwd (Path.join "/s" sampleHeaderRule.src) =
        true ∧
      ((copyHeaders sampleHeaderRule "/s" "/p").run blockedHeaderMachine).1 =
        .error (.io "Not a directory (os error 20)") ∧
      ((copyHeaders nestedHeaderRule "/s" "/s").run nestedHeaderMachine).1 = .ok ["/s/inc/x/a.h"] ∧
      ((copyHeaders nestedHeaderRule "/s" "/s").run
          ((copyHeaders nestedHeaderRule "/s" "/s").run nestedHeaderMachine).2).1 =
        .ok ["/s/inc/x/a.h", "/s/inc/x/x/a.h"] := by
  refine ⟨by decide +kernel, by decide +kernel, by decide +kernel, by decide +kernel⟩

end BuildRecipe
