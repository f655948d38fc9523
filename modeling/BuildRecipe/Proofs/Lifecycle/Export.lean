import BuildRecipe.Proofs.Lifecycle.Staging
import BuildRecipe.Lifecycle.Export
import Mathlib.Data.List.DropRight
import Mathlib.Data.List.Infix
import Mathlib.Data.List.Lex
import Mathlib.Data.String.Basic
/-!
# Exporting sources

Exporting reads first and writes after: every pattern is searched below the root on the tree
as it is, and the first pattern whose search is refused fails the export with its parse
error before anything is written. Otherwise the files the searches select (a file found, or
every file below a directory found) are taken once each as paths, in path order, and each is
copied to its path relative to the root below the destination.

When every path the searches find lies below the root by plain names, in a well-formed tree
of plain names where the destination is a directory and the copies stay apart (`ExportApart`:
no folder a copy needs holds a file, no copy lands on a directory or on a file copied), the
export answers exactly the selected files' paths relative to the root, in increasing path
order, copies each onto its path below the destination, and changes nothing else but the
folders it makes where nothing was; in particular nothing outside the destination. A pattern
with `..` finds paths outside the root: their relative paths climb out of the destination too.

Main statement: `exportFiles_copies_selection`. The pattern `../x.txt` is
`export_pattern_leaves_destination`.
-/

namespace BuildRecipe

namespace Path

-- ============================================================================
-- A path read relative to a base, as it is written
-- ============================================================================

/-- What a segment of a path stands for after the first: nothing when it is empty or `.`,
`..` for `..`, and a name otherwise. -/
def segmentComponent (seg : String) : Option Component :=
  if seg = "" ∨ seg = "." then none else if seg = ".." then some .parent else some (.normal seg)

theorem namedComponents_eq (s : String) :
    namedComponents s = (segments s).filterMap segmentComponent := rfl

/-- The first segment stands for the root in an absolute path, for `.` when it is `.`, and
as the others do otherwise. -/
theorem segmentComponents_cons {s seg : String} {rest : List String}
    (h : segments s = seg :: rest) :
    segmentComponents s =
      (seg, if isAbsolute s then some .root else if seg = "." then some .current
        else segmentComponent seg) :: rest.map fun seg => (seg, segmentComponent seg) := by
  unfold segmentComponents
  rw [h, List.zipIdx_cons, List.map_cons]
  congr 1
  · by_cases ha : isAbsolute s = true <;> by_cases hd : seg = "." <;>
      simp only [ha, hd, segmentComponent, and_true, and_false, if_true, if_false,
        Bool.false_eq_true, or_true]
    split_ifs <;> rfl
  · conv_rhs => rw [← List.zipIdx_map_fst 1 rest, List.map_map]
    refine List.map_congr_left fun x hx => ?_
    obtain ⟨seg', i⟩ := x
    have hi : i ≠ 0 := by
      have := (List.mem_zipIdx hx).1
      omega
    simp only [hi, false_and, if_false, segmentComponent, Function.comp_apply]
    split_ifs <;> rfl

theorem segments_of_isAbsolute {s : String} (h : isAbsolute s = true) :
    ∃ rest, segments s = "" :: rest := by
  obtain ⟨cs, hcs⟩ : ∃ cs, s.toList = '/' :: cs := by
    unfold isAbsolute at h
    cases hs : s.toList with
    | nil => simp [hs] at h
    | cons c cs => exact ⟨cs, by simp_all⟩
  have hs : s = "/" ++ String.ofList cs := String.ext (by simp [hcs, String.toList_append])
  exact ⟨_, by rw [hs, segments_slash_append]⟩

/-- The components a path's segments stand for are its components. -/
theorem filterMap_segmentComponents (s : String) :
    (segmentComponents s).filterMap (·.2) = components s := by
  obtain ⟨seg, rest, h⟩ := List.exists_cons_of_ne_nil (segments_ne_nil s)
  have hrest : (rest.map fun seg => (seg, segmentComponent seg)).filterMap (·.2) =
      rest.filterMap segmentComponent := by
    rw [List.filterMap_map]
    rfl
  have hK : components s = (if isAbsolute s then [Component.root] else []) ++
      (if !isAbsolute s && (seg == ".") then [Component.current] else []) ++
      (seg :: rest).filterMap segmentComponent := by
    simp only [components, h]
    rfl
  rw [segmentComponents_cons h, List.filterMap_cons, hrest, hK]
  by_cases ha : isAbsolute s = true
  · -- an absolute path starts with an empty segment
    obtain ⟨rest', h'⟩ := segments_of_isAbsolute ha
    rw [h] at h'
    obtain ⟨rfl, -⟩ := List.cons.inj h'
    simp [ha, segmentComponent]
  · by_cases hd : seg = "."
    · simp [ha, hd, segmentComponent]
    · simp only [ha, hd, if_false, Bool.false_eq_true]
      simp [List.filterMap_cons, hd]

/-- Reading a base's components off the segments of a path skips the segments that stand for
nothing and leaves the segments after the last one read. -/
theorem stripPrefixText?_go_of_prefix :
    ∀ (want : List Component) (segs : List (String × Option Component)) (rest : List Component),
      segs.filterMap (·.2) = want ++ rest →
      ∃ post, post <:+ segs ∧ post.filterMap (·.2) = rest ∧
        stripPrefixText?.go want segs = some (post.map (·.1)) := by
  intro want segs
  induction segs generalizing want with
  | nil =>
    intro rest h
    obtain ⟨rfl, rfl⟩ := List.append_eq_nil_iff.mp h.symm
    exact ⟨[], List.suffix_refl _, rfl, rfl⟩
  | cons x segs ih =>
    intro rest h
    obtain ⟨seg, c⟩ := x
    cases want with
    | nil =>
      refine ⟨(seg, c) :: segs, List.suffix_refl _, h, ?_⟩
      simp [stripPrefixText?.go]
    | cons w want =>
      cases c with
      | none =>
        obtain ⟨post, hpost, hrest, hgo⟩ := ih (w :: want) rest (by simpa using h)
        exact ⟨post, hpost.trans (List.suffix_cons _ _), hrest, by simpa [stripPrefixText?.go] using hgo⟩
      | some d =>
        simp only [List.filterMap_cons, List.cons_append, List.cons.injEq] at h
        obtain ⟨rfl, h⟩ := h
        obtain ⟨post, hpost, hrest, hgo⟩ := ih want rest h
        exact ⟨post, hpost.trans (List.suffix_cons _ _), hrest, by simpa [stripPrefixText?.go] using hgo⟩

theorem map_fst_segmentComponents (s : String) : (segmentComponents s).map (·.1) = segments s := by
  obtain ⟨seg, rest, h⟩ := List.exists_cons_of_ne_nil (segments_ne_nil s)
  rw [segmentComponents_cons h, h, List.map_cons, List.map_map]
  congr 1
  conv_rhs => rw [← List.map_id rest]
  rfl

/-- Every segment stands for what `segmentComponent` reads, except a first one that stands for
the root or for `.`. -/
theorem mem_segmentComponents {s : String} {x : String × Option Component}
    (hx : x ∈ segmentComponents s) :
    x.2 = segmentComponent x.1 ∨ x.2 = some .root ∨ x.2 = some .current := by
  obtain ⟨seg, rest, h⟩ := List.exists_cons_of_ne_nil (segments_ne_nil s)
  rw [segmentComponents_cons h] at hx
  rcases List.mem_cons.mp hx with rfl | hx
  · dsimp only
    split_ifs <;> simp
  · obtain ⟨seg', -, rfl⟩ := List.mem_map.mp hx
    exact .inl rfl

theorem isFiller_eq_true_iff {seg : String} : isFiller seg = true ↔ segmentComponent seg = none := by
  unfold isFiller segmentComponent
  by_cases h1 : seg = "" <;> by_cases h2 : seg = "." <;> by_cases h3 : seg = ".." <;> simp_all

/-- A segment without a slash that stands for a name is a plain name. -/
theorem isPlainName_of_segmentComponent {seg n : String} (hs : '/' ∉ seg.toList)
    (h : segmentComponent seg = some (.normal n)) : IsPlainName seg := by
  unfold segmentComponent at h
  split_ifs at h with h1 h2
  · cases h
  · rw [not_or] at h1
    exact ⟨hs, h1.1, h1.2, h2⟩

/-- Dropping segments that stand for nothing keeps what the others stand for. -/
theorem filterMap_dropWhile_isFiller (l : List String) :
    (l.dropWhile isFiller).filterMap segmentComponent = l.filterMap segmentComponent := by
  induction l with
  | nil => rfl
  | cons seg l ih =>
    by_cases h : isFiller seg = true
    · rw [List.dropWhile_cons_of_pos h, ih, List.filterMap_cons_none (isFiller_eq_true_iff.mp h)]
    · rw [List.dropWhile_cons_of_neg h]

theorem filterMap_rdropWhile_isFiller (l : List String) :
    (l.rdropWhile isFiller).filterMap segmentComponent = l.filterMap segmentComponent := by
  rw [List.rdropWhile, List.filterMap_reverse, filterMap_dropWhile_isFiller,
    ← List.filterMap_reverse, List.reverse_reverse]

theorem stripPrefixText?_eq (p base : String) :
    stripPrefixText? p base = (stripPrefixText?.go (components base) (segmentComponents p)).map
      fun segs => "/".intercalate ((segs.dropWhile isFiller).rdropWhile isFiller) := rfl

/-- Slashes joining texts whose first is neither empty nor holds a slash make a relative
path. -/
theorem isAbsolute_intercalate_cons {x : String} (xs : List String) (hx : x ≠ "")
    (hslash : '/' ∉ x.toList) : isAbsolute ("/".intercalate (x :: xs)) = false := by
  rw [isAbsolute, head?_toList_intercalate _ hx]
  cases hc : x.toList with
  | nil => simp
  | cons c cs =>
    have : c ≠ '/' := fun hc' => hslash (by simp [hc, hc'])
    simp [this]

/-- Segments without slashes that stand for plain names, at least one, with what stands for
nothing trimmed off both ends, are a relative path of those names that ends in a plain name. -/
theorem intercalate_trimmed {segs : List String} {names : List String} (hne : names ≠ [])
    (hs : ∀ seg ∈ segs, '/' ∉ seg.toList)
    (h : segs.filterMap segmentComponent = names.map .normal) :
    let rel := "/".intercalate ((segs.dropWhile isFiller).rdropWhile isFiller)
    isAbsolute rel = false ∧ namedComponents rel = names.map .normal ∧
      components rel = names.map .normal ∧ ∃ last, IsPlainName last ∧ last.toList <:+ rel.toList := by
  intro rel
  set D := segs.dropWhile isFiller
  set T := D.rdropWhile isFiller
  have hT : T.filterMap segmentComponent = names.map .normal := by
    rw [filterMap_rdropWhile_isFiller, filterMap_dropWhile_isFiller, h]
  have hTne : T ≠ [] := fun he => hne (by simpa [he] using hT.symm)
  have hTs : ∀ seg ∈ T, '/' ∉ seg.toList := fun seg hseg =>
    hs seg ((List.dropWhile_suffix _).subset ((List.rdropWhile_prefix _ _).subset hseg))
  -- both ends stand for something
  have hDne : D ≠ [] := fun he => hTne (by simp [T, he])
  have hhead : T.head hTne = D.head hDne := by
    obtain ⟨u, hu⟩ := List.rdropWhile_prefix isFiller D
    have h' : T.head? = D.head? := by
      rw [← hu, List.head?_append, List.head?_eq_some_head hTne]
      rfl
    rw [List.head?_eq_some_head hTne, List.head?_eq_some_head hDne] at h'
    exact Option.some.inj h'
  have hfirst : isFiller (T.head hTne) = false := by
    rw [hhead]
    exact List.head_dropWhile_not _ hDne
  have hlast : ¬ isFiller (T.getLast hTne) = true := List.rdropWhile_last_not _ _ hTne
  have hsegs : segments rel = T := segments_intercalate hTne hTs
  have habs : isAbsolute rel = false := by
    have hne' : T.head hTne ≠ "" := fun he => by simp [isFiller, he] at hfirst
    rw [show rel = "/".intercalate T from rfl, ← List.cons_head_tail hTne]
    exact isAbsolute_intercalate_cons _ hne' (hTs _ (List.head_mem hTne))
  refine ⟨habs, by rw [namedComponents_eq, hsegs, hT], ?_, ?_⟩
  · have hdot : (segments rel).head? ≠ some "." := by
      rw [hsegs, List.head?_eq_some_head hTne]
      intro he
      simp [← Option.some.inj he, isFiller] at hfirst
    simp only [components, show (rel.toList.head? == some '/') = false from habs, hsegs]
    simp only [hsegs] at hdot
    simp [hdot, ← hT]
    rfl
  · -- the last segment stands for a name, so it is a plain name
    obtain ⟨c, hc⟩ := Option.ne_none_iff_exists'.mp fun h => hlast (isFiller_eq_true_iff.mpr h)
    have hmem : c ∈ names.map Component.normal := by
      rw [← hT]
      exact List.mem_filterMap.mpr ⟨_, List.getLast_mem hTne, hc⟩
    obtain ⟨n, -, rfl⟩ := List.mem_map.mp hmem
    refine ⟨T.getLast hTne, isPlainName_of_segmentComponent (hTs _ (List.getLast_mem hTne)) hc, ?_⟩
    conv_rhs => rw [show rel = "/".intercalate T from rfl, ← List.dropLast_concat_getLast hTne]
    exact suffix_intercalate_concat _ _

/-- A path whose components are a base's and plain names after them reads, relative to the
base as it is written, as a relative path of those names that ends in a plain name. -/
theorem stripPrefixText?_below {p base : String} {names : List String} (hne : names ≠ [])
    (hK : components p = components base ++ names.map .normal) :
    ∃ rel, stripPrefixText? p base = some rel ∧ isAbsolute rel = false ∧
      namedComponents rel = names.map .normal ∧ components rel = names.map .normal ∧
      ∃ last, IsPlainName last ∧ last.toList <:+ rel.toList := by
  obtain ⟨post, hpost, hrest, hgo⟩ := stripPrefixText?_go_of_prefix (components base)
    (segmentComponents p) (names.map .normal) (by rw [filterMap_segmentComponents, hK])
  -- after the base every segment stands for what it reads as: the root and `.` come first
  have hfaith : ∀ x ∈ post, x.2 = segmentComponent x.1 := by
    intro x hx
    rcases mem_segmentComponents (hpost.subset hx) with h | h | h
    · exact h
    all_goals
      have hc := List.mem_filterMap.mpr ⟨x, hx, h⟩
      rw [hrest] at hc
      simp at hc
  have hsegs : (post.map (·.1)).filterMap segmentComponent = names.map .normal := by
    rw [List.filterMap_map, ← hrest]
    exact List.filterMap_congr fun x hx => (hfaith x hx).symm
  have hslash : ∀ seg ∈ post.map (·.1), '/' ∉ seg.toList := by
    intro seg hseg
    refine slash_not_mem_of_mem_segments (s := p) ?_
    rw [← map_fst_segmentComponents]
    exact (hpost.map _).subset hseg
  obtain ⟨habs, hnamed, hK', hlast⟩ := intercalate_trimmed hne hslash hsegs
  exact ⟨_, by rw [stripPrefixText?_eq, hgo]; rfl, habs, hnamed, hK', hlast⟩

-- ============================================================================
-- Paths below a base by plain names
-- ============================================================================

/-- The plain names a path adds to a base, when its components are the base's and plain names
after them. -/
def namesBelow? (base p : String) : Option (List String) :=
  (stripPrefix? (components p) (components base)).bind fun rest =>
    if rest = (rest.map Component.text).map .normal ∧
        ∀ n ∈ rest.map Component.text, IsPlainName n then
      some (rest.map Component.text)
    else none

theorem namesBelow?_eq_some {base p : String} {names : List String} :
    namesBelow? base p = some names ↔
      (∀ n ∈ names, IsPlainName n) ∧ components p = components base ++ names.map .normal := by
  unfold namesBelow? stripPrefix?
  split
  · rename_i hpre
    obtain ⟨rest, hrest⟩ := List.isPrefixOf_iff_prefix.mp hpre
    rw [← hrest, List.drop_left, Option.bind_some, List.append_cancel_left_eq]
    constructor
    · intro h
      split at h
      · rename_i hcond
        cases h
        exact ⟨hcond.2, hcond.1⟩
      · cases h
    · rintro ⟨hnames, rfl⟩
      rw [texts_normal, if_pos ⟨rfl, hnames⟩]
  · rename_i hpre
    simp only [Option.bind_none, reduceCtorEq, false_iff, not_and]
    intro _ h
    exact hpre (List.isPrefixOf_iff_prefix.mpr (h ▸ List.prefix_append _ _))

/-- Names in increasing order give components in path order, and only they do. -/
theorem lt_go_map_normal_iff : ∀ {a b : List String},
    lt.go (a.map .normal) (b.map .normal) = true ↔ a < b
  | [], [] => by simp [lt.go]
  | [], _ :: _ => by simp [lt.go, List.nil_lt_cons]
  | _ :: _, [] => by simp [lt.go]
  | x :: xs, y :: ys => by
    rw [List.cons_lt_cons_iff]
    simp only [List.map_cons, lt.go]
    by_cases h : x = y
    · subst h
      simp [lt_go_map_normal_iff]
    · simp [h, Component.lt]

/-- Two paths that add names to the same components are in path order exactly when their names
are. -/
theorem lt_iff_of_components {K : List Component} {a b : String} {na nb : List String}
    (ha : components a = K ++ na.map .normal) (hb : components b = K ++ nb.map .normal) :
    lt a b = true ↔ na < nb := by
  unfold lt
  rw [ha, hb, lt_go_append, lt_go_map_normal_iff]

theorem denote_of_namesBelow? {base p : String} {names : List String}
    (h : namesBelow? base p = some names) (cwd : List String) :
    denote cwd p = denote cwd base ++ names := by
  rw [denote, (namesBelow?_eq_some.mp h).2, List.foldl_append, foldl_enter_normal]
  rfl

/-- What a path adds to a base depends only on its components. -/
theorem namesBelow?_congr {base p p' : String} (h : components p = components p') :
    namesBelow? base p = namesBelow? base p' := by
  unfold namesBelow?
  rw [h]

theorem lt_iff_of_namesBelow? {base a b : String} {na nb : List String}
    (ha : namesBelow? base a = some na) (hb : namesBelow? base b = some nb) :
    lt a b = true ↔ na < nb :=
  lt_iff_of_components (namesBelow?_eq_some.mp ha).2 (namesBelow?_eq_some.mp hb).2

end Path

namespace FileTree

variable {t : FileTree}

-- ============================================================================
-- What a path found selects
-- ============================================================================

/-- What a path names, read at the location it leads to; a path that asks for a directory
names one. -/
theorem metadata_ok {cwd : Location} {p : String} {n : Node} (h : t.metadata cwd p = .ok n) :
    ∃ w, t.resolve cwd p = .ok ⟨Path.denote cwd p, w⟩ ∧ t.get? (Path.denote cwd p) = some n ∧
      (w = true → n.isDirectory = true) := by
  unfold metadata at h
  cases hr : t.resolve cwd p with
  | error e => simp [hr, bind, Except.bind] at h
  | ok r =>
    obtain ⟨-, hloc⟩ := resolve_location hr
    simp only [hr, bind, Except.bind] at h
    cases hg : t.get? r.location with
    | none => simp [hg, throw, throwThe, MonadExceptOf.throw] at h
    | some n' =>
      simp only [hg] at h
      split at h
      · cases h
      · rename_i hw
        cases h
        refine ⟨r.wantsDirectory, by rw [← hloc], hloc ▸ hg, fun hw' => ?_⟩
        simpa [hw'] using hw

/-- Every entry at and below a location that holds something, up to the depth bound, is walked
as the path and the names that lead to it, and nothing else is; the induction is on the bound. -/
theorem mem_walkFrom_iff (hwf : t.WellFormed) {fuel : Nat} {path : String}
    {below : List String} {l : Location} (hl : t.get? l ≠ none) {e : WalkEntry} :
    e ∈ t.walkFrom fuel path below l ↔
      ∃ s n, s.length < fuel ∧ t.get? (l ++ s) = some n ∧
        e = ⟨s.foldl Path.join path, below ++ s, n.isDirectory⟩ := by
  induction fuel generalizing path below l with
  | zero => simp [walkFrom]
  | succ fuel ih =>
    obtain ⟨node, hnode⟩ := Option.ne_none_iff_exists'.mp hl
    cases node with
    | directory =>
      simp only [walkFrom, hnode, List.mem_cons, List.mem_flatMap]
      constructor
      · rintro (rfl | ⟨m, hm, he⟩)
        · exact ⟨[], .directory, by simp, by simpa using hnode, by simp [Node.isDirectory]⟩
        · obtain ⟨node', hnode'⟩ := get?_of_mem_children hm
          obtain ⟨s, n, hlen, hget, rfl⟩ := (ih (by simp [hnode'])).mp he
          exact ⟨m :: s, n, by simp; omega, by simpa using hget, by simp⟩
      · rintro ⟨s, n, hlen, hget, rfl⟩
        cases s with
        | nil =>
          left
          rw [List.append_nil, hnode] at hget
          cases hget
          simp [Node.isDirectory]
        | cons m s =>
          right
          -- the first name below is an entry: where the walk goes down
          obtain ⟨node', hnode'⟩ : ∃ node', t.get? (l ++ [m]) = some node' := by
            by_cases hs : s = []
            · subst hs
              exact ⟨n, by simpa using hget⟩
            · exact ⟨_, hwf.get?_of_isPrefix hget (by simp) (by simpa using hs)⟩
          refine ⟨m, mem_children_of_get? hnode', (ih (by simp [hnode'])).mpr
            ⟨s, n, by simp at hlen; omega, by simpa using hget, by simp⟩⟩
    | file c mode | executable c =>
      simp only [walkFrom, hnode, List.mem_singleton]
      constructor
      · rintro rfl
        exact ⟨[], _, by simp, by simpa using hnode, by simp [Node.isDirectory]⟩
      · rintro ⟨s, n, hlen, hget, rfl⟩
        cases s with
        | nil =>
          rw [List.append_nil, hnode] at hget
          cases hget
          simp [Node.isDirectory]
        | cons m s =>
          -- nothing lies below a file
          have hdir := hwf.get?_of_isPrefix hget (List.prefix_append l _) (by simp)
          rw [hnode] at hdir
          cases hdir

/-- A walk of a path that names something lists every entry at and below the location it leads
to, as the path with the names below joined to it. -/
theorem mem_walk_iff (hwf : t.WellFormed) {cwd : Location} {p : String} {node : Node}
    (hm : t.metadata cwd p = .ok node) {e : WalkEntry} :
    e ∈ t.walk cwd p ↔ ∃ s n, t.get? (Path.denote cwd p ++ s) = some n ∧
      e = ⟨s.foldl Path.join p, s, n.isDirectory⟩ := by
  obtain ⟨w, hr, hget, -⟩ := metadata_ok hm
  unfold walk
  rw [hr, hm]
  dsimp only
  rw [mem_walkFrom_iff hwf (by simp [hget])]
  constructor
  · rintro ⟨s, n, -, hs, rfl⟩
    exact ⟨s, n, hs, by simp⟩
  · rintro ⟨s, n, hs, rfl⟩
    -- no entry lies deeper below a location than there are entries
    have hlen := (length_le_subtree hwf hs).trans (List.length_filter_le _ _)
    exact ⟨s, n, by omega, hs, by simp⟩

/-- The paths found select the files at and below the locations they name. -/
theorem mem_selectedFiles (hwf : t.WellFormed) {cwd : Location} {paths : List String}
    {f : String} :
    f ∈ selectedFiles t cwd paths ↔ ∃ p ∈ paths, (∃ n, t.metadata cwd p = .ok n) ∧
      ∃ s n, t.get? (Path.denote cwd p ++ s) = some n ∧ n.isDirectory = false ∧
        f = s.foldl Path.join p := by
  unfold selectedFiles
  rw [List.mem_flatMap]
  refine exists_congr fun p => and_congr_right fun _ => ?_
  cases hm : t.metadata cwd p with
  | error e => simp [isDir, isFile, hm]
  | ok node =>
    obtain ⟨w, hr, hget, hw⟩ := metadata_ok hm
    cases node with
    | directory =>
      simp only [isDir, hm, if_true, List.mem_map, List.mem_filter, mem_walk_iff hwf hm]
      constructor
      · rintro ⟨e, ⟨⟨s, n, hs, rfl⟩, hnd⟩, rfl⟩
        exact ⟨⟨_, rfl⟩, s, n, hs, by simpa using hnd, rfl⟩
      · rintro ⟨-, s, n, hs, hnd, rfl⟩
        exact ⟨_, ⟨⟨s, n, hs, rfl⟩, by simp [hnd]⟩, rfl⟩
    | file c mode | executable c =>
      simp only [isDir, isFile, hm, Bool.false_eq_true, if_false, if_true, List.mem_singleton]
      constructor
      · rintro rfl
        exact ⟨⟨_, rfl⟩, [], _, by simpa using hget, rfl, rfl⟩
      · rintro ⟨-, s, n, hs, -, rfl⟩
        cases s with
        | nil => rfl
        | cons m s =>
          -- nothing lies below a file
          have hdir := hwf.get?_of_isPrefix hs (List.prefix_append _ _) (by simp)
          rw [hget] at hdir
          cases hdir

/-- A file selected below a path found under the root by plain names lies under the root by
plain names too, and its path resolves to it without asking for a directory. -/
theorem selected_below (hwf : t.WellFormed) (hplain : t.PlainNames) {cwd : Location}
    {root p : String} {pre : List String} (hpre : Path.namesBelow? root p = some pre)
    {node : Node} (hm : t.metadata cwd p = .ok node) {s : List String} {n : Node}
    (hs : t.get? (Path.denote cwd p ++ s) = some n) (hnd : n.isDirectory = false) :
    Path.namesBelow? root (s.foldl Path.join p) = some (pre ++ s) ∧
      t.resolve cwd (s.foldl Path.join p) = .ok ⟨Path.denote cwd p ++ s, false⟩ := by
  obtain ⟨w, hr, hget, hw⟩ := metadata_ok hm
  have hsp : ∀ a ∈ s, Path.IsPlainName a := fun a ha =>
    hplain _ _ hs a (List.mem_append_right _ ha)
  obtain ⟨hpp, hK⟩ := Path.namesBelow?_eq_some.mp hpre
  refine ⟨Path.namesBelow?_eq_some.mpr ⟨fun a ha => ?_, ?_⟩, ?_⟩
  · exact (List.mem_append.mp ha).elim (hpp a) (hsp a)
  · rw [Path.components_foldl_join p hsp, hK, List.map_append, List.append_assoc]
  · cases s with
    | nil =>
      -- the path names a file itself, so it does not ask for a directory
      rw [List.append_nil, hget] at hs
      cases hs
      have hw' : w = false := by
        cases w with
        | false => rfl
        | true => simp [hw rfl] at hnd
      rw [List.foldl_nil, List.append_nil, hr, hw']
    | cons a s => exact resolve_foldl_join hwf hr (by simp) hsp hs

end FileTree

-- ============================================================================
-- In path order
-- ============================================================================

section Sorting

variable {α : Type} {le : α → α → Bool} {S : α → Prop}
  (htotal : ∀ a b, S a → S b → le a b = true ∨ le b a = true)
  (htrans : ∀ a b c, S a → S b → S c → le a b = true → le b c = true → le a c = true)
include htotal htrans

/-- Inserting into a sorted list keeps it sorted, where `le` is total and transitive. -/
theorem insertBy_pairwise {x : α} (hx : S x) :
    ∀ {ys : List α}, (∀ y ∈ ys, S y) → ys.Pairwise (le · · = true) →
      (insertBy le x ys).Pairwise (le · · = true)
  | [], _, _ => List.pairwise_singleton _ _
  | y :: ys, hys, hpw => by
    have hy : S y := hys y List.mem_cons_self
    obtain ⟨hyz, hpw'⟩ := List.pairwise_cons.mp hpw
    unfold insertBy
    split
    · rename_i hxy
      refine List.Pairwise.cons (fun z hz => ?_) hpw
      rcases List.mem_cons.mp hz with rfl | hz
      · exact hxy
      · exact htrans _ _ _ hx hy (hys z (List.mem_cons_of_mem _ hz)) hxy (hyz z hz)
    · rename_i hxy
      have hyx : le y x = true := (htotal x y hx hy).resolve_left hxy
      refine List.Pairwise.cons (fun z hz => ?_)
        (insertBy_pairwise hx (fun z hz => hys z (List.mem_cons_of_mem _ hz)) hpw')
      rcases List.mem_cons.mp ((insertBy_perm le x ys).mem_iff.mp hz) with rfl | hz
      · exact hyx
      · exact hyz z hz

/-- The sort by `le` is sorted where `le` is total and transitive; the induction is on the list. -/
theorem sortBy_pairwise : ∀ {l : List α}, (∀ a ∈ l, S a) → (sortBy le l).Pairwise (le · · = true)
  | [], _ => .nil
  | x :: l, hl => by
    have hsort : sortBy le (x :: l) = insertBy le x (sortBy le l) := rfl
    rw [hsort]
    exact insertBy_pairwise htotal htrans (hl x List.mem_cons_self)
      (fun y hy => hl y (List.mem_cons_of_mem _ ((sortBy_perm le l).mem_iff.mp hy)))
      (sortBy_pairwise fun a ha => hl a (List.mem_cons_of_mem _ ha))

end Sorting

/-- Different paths below one base by plain names come out of the path sort in strictly
increasing path order. -/
theorem sortPaths_pairwise {base : String} {l : List String}
    (hbelow : ∀ x ∈ l, ∃ names, Path.namesBelow? base x = some names)
    (hdist : l.Pairwise (fun a b => Path.components a ≠ Path.components b)) :
    (sortPaths l).Pairwise (fun a b => Path.lt a b = true) := by
  -- on paths below the base, `!lt b a` is the order of the names
  have hle : ∀ a b na nb, Path.namesBelow? base a = some na → Path.namesBelow? base b = some nb →
      ((!Path.lt b a) = true ↔ na ≤ nb) := by
    intro a b na nb ha hb
    rw [Bool.not_eq_true', ← Bool.not_eq_true, Path.lt_iff_of_namesBelow? hb ha, not_lt]
  have hsorted := @sortBy_pairwise String (fun a b => !Path.lt b a)
    (fun x => ∃ names, Path.namesBelow? base x = some names)
    (fun a b ⟨na, ha⟩ ⟨nb, hb⟩ => (le_total na nb).imp (hle a b na nb ha hb).mpr
      (hle b a nb na hb ha).mpr)
    (fun a b c ⟨na, ha⟩ ⟨nb, hb⟩ ⟨nc, hc⟩ hab hbc => (hle a c na nc ha hc).mpr
      (((hle a b na nb ha hb).mp hab).trans ((hle b c nb nc hb hc).mp hbc))) l hbelow
  have hperm := sortBy_perm (fun a b => !Path.lt b a) l
  have hdist' := (hperm.pairwise_iff fun h => Ne.symm h).mpr hdist
  refine (hsorted.and hdist').imp_of_mem fun {a b} ha hb ⟨hab, hne⟩ => ?_
  obtain ⟨na, hna⟩ := hbelow a (hperm.mem_iff.mp ha)
  obtain ⟨nb, hnb⟩ := hbelow b (hperm.mem_iff.mp hb)
  refine (Path.lt_iff_of_namesBelow? hna hnb).mpr (lt_of_le_of_ne ((hle a b na nb hna hnb).mp hab) ?_)
  -- the same names would make the same path
  rintro rfl
  exact hne (by rw [(Path.namesBelow?_eq_some.mp hna).2, (Path.namesBelow?_eq_some.mp hnb).2])

namespace Act

variable {γ σ : Type}

/-- A loop whose body leaves the machine as it is and answers from it runs as a fold in `Except`
on the machine it starts from; the induction is on the list. -/
theorem forIn_run_of_reads (l : List γ) (init : σ) (body : γ → σ → Act (ForInStep σ))
    (g : σ → γ → Except Error σ) (m : Machine)
    (hbody : ∀ x ∈ l, ∀ s, (body x s).run m = ((g s x).map .yield, m)) :
    (forIn l init body).run m = (l.foldlM g init, m) := by
  induction l generalizing init with
  | nil => rfl
  | cons x l ih =>
    rw [List.forIn_cons, run_bind, hbody x List.mem_cons_self, List.foldlM_cons]
    cases g init x with
    | ok s' => exact ih s' fun y hy => hbody y (List.mem_cons_of_mem _ hy)
    | error e => rfl

/-- A loop whose body always goes on, taking a state with a property of the elements before it
to one with the property of those and the element, ends with the property of the whole list;
the induction is on the elements left. -/
theorem forIn_run_of_step {l : List γ} {init : σ} {body : γ → σ → Act (ForInStep σ)}
    (P : List γ → σ → Machine → Prop) {m : Machine} (hinit : P [] init m)
    (hstep : ∀ pre x post, l = pre ++ x :: post → ∀ s m, P pre s m →
      ∃ s' m', (body x s).run m = (.ok (.yield s'), m') ∧ P (pre ++ [x]) s' m') :
    ∃ s m', (forIn l init body).run m = (.ok s, m') ∧ P l s m' := by
  suffices h : ∀ post pre, l = pre ++ post → ∀ s m, P pre s m →
      ∃ s' m', (forIn post s body).run m = (.ok s', m') ∧ P l s' m' from
    h l [] rfl init m hinit
  intro post
  induction post with
  | nil =>
    intro pre hl s m hP
    exact ⟨s, m, rfl, by simpa [hl] using hP⟩
  | cons x post ih =>
    intro pre hl s m hP
    obtain ⟨s', m', hrun, hP'⟩ := hstep pre x post hl s m hP
    obtain ⟨s'', m'', hrun', hP''⟩ := ih (pre ++ [x]) (by simp [hl]) s' m' hP'
    refine ⟨s'', m'', ?_, hP''⟩
    rw [List.forIn_cons, run_bind, hrun]
    exact hrun'

end Act

-- ============================================================================
-- The searches
-- ============================================================================

/-- One pattern's search below the root: the files it selects added to those found, or its
parse error. -/
def exportSearchStep (t : FileTree) (cwd : Location) (root : String) (found : List String)
    (pattern : String) : Except Error (List String) :=
  match Glob.search t cwd (Path.join root pattern) with
  | .error e => .error (invalidExportPattern pattern e)
  | .ok paths => .ok (found ++ selectedFiles t cwd paths)

section Search

variable {t : FileTree} {cwd : Location} {root : String}

/-- The first pattern whose search is refused fails the searches with its parse error. -/
theorem foldlM_exportSearchStep_error {pattern : String} {post : List String}
    {e : Glob.PatternError} (he : Glob.search t cwd (Path.join root pattern) = .error e) :
    ∀ (pre : List String) (init : List String),
      (∀ q ∈ pre, ∃ paths, Glob.search t cwd (Path.join root q) = .ok paths) →
      (pre ++ pattern :: post).foldlM (exportSearchStep t cwd root) init =
        .error (invalidExportPattern pattern e)
  | [], init, _ => by
    rw [List.nil_append, List.foldlM_cons]
    simp only [exportSearchStep, he]
    rfl
  | q :: pre, init, hpre => by
    obtain ⟨paths, hq⟩ := hpre q List.mem_cons_self
    rw [List.cons_append, List.foldlM_cons]
    simp only [exportSearchStep, hq]
    exact foldlM_exportSearchStep_error he pre _ fun q' hq' => hpre q' (List.mem_cons_of_mem _ hq')

/-- When every search succeeds, the searches find, after what was found before, the files each
pattern's paths select. -/
theorem foldlM_exportSearchStep_ok :
    ∀ (patterns init : List String),
      (∀ q ∈ patterns, ∃ paths, Glob.search t cwd (Path.join root q) = .ok paths) →
      ∃ found, patterns.foldlM (exportSearchStep t cwd root) init = .ok found ∧
        ∀ f, f ∈ found ↔ f ∈ init ∨ ∃ q ∈ patterns, ∃ paths,
          Glob.search t cwd (Path.join root q) = .ok paths ∧ f ∈ selectedFiles t cwd paths
  | [], init, _ => ⟨init, rfl, fun f => by simp⟩
  | q :: patterns, init, hall => by
    obtain ⟨paths, hq⟩ := hall q List.mem_cons_self
    obtain ⟨found, hfound, hmem⟩ := foldlM_exportSearchStep_ok patterns
      (init ++ selectedFiles t cwd paths) fun q' hq' => hall q' (List.mem_cons_of_mem _ hq')
    refine ⟨found, ?_, fun f => ?_⟩
    · rw [List.foldlM_cons]
      simp only [exportSearchStep, hq]
      exact hfound
    · rw [hmem, List.mem_append]
      constructor
      · rintro ((h | h) | ⟨q', hq', h⟩)
        · exact .inl h
        · exact .inr ⟨q, List.mem_cons_self, paths, hq, h⟩
        · exact .inr ⟨q', List.mem_cons_of_mem _ hq', h⟩
      · rintro (h | ⟨q', hq', paths', hs, h⟩)
        · exact .inl (.inl h)
        rcases List.mem_cons.mp hq' with rfl | hq'
        · rw [hq] at hs
          cases hs
          exact .inl (.inr h)
        · exact .inr ⟨q', hq', paths', hs, h⟩

end Search

-- ============================================================================
-- The copies
-- ============================================================================

namespace FileTree

variable {t : FileTree}

/-- Nothing lies below a file of a well-formed tree: names leading to a file that begin names
leading to an entry are those names. -/
theorem WellFormed.eq_of_prefix_file (hwf : t.WellFormed) {L a b : Location} {n n' : Node}
    (ha : t.get? (L ++ a) = some n) (hn : n.isDirectory = false)
    (hb : t.get? (L ++ b) = some n') (hab : a <+: b) : a = b := by
  by_contra hne
  have hdir := hwf.get?_of_isPrefix hb ((List.prefix_append_right_inj L).mpr hab)
    (by simpa using hne)
  rw [ha] at hdir
  cases hdir
  simp [Node.isDirectory] at hn

/-- The stops of plain names taken from a location are the location with the names' prefixes. -/
theorem eq_append_of_mem_stops_map_normal {here x : Location} {names : List String}
    (hx : x ∈ stops here (names.map .normal)) : ∃ p, p <+: names ∧ x = here ++ p := by
  induction names generalizing here with
  | nil =>
    rw [List.map_nil, stops_nil, List.mem_singleton] at hx
    exact ⟨[], List.nil_prefix, by simp [hx]⟩
  | cons n names ih =>
    rw [List.map_cons, stops_cons_of_ne_root _ (by simp)] at hx
    rcases List.mem_cons.mp hx with rfl | hx
    · exact ⟨[], List.nil_prefix, by simp⟩
    · obtain ⟨p, hp, rfl⟩ := ih hx
      exact ⟨n :: p, List.cons_prefix_cons.mpr ⟨rfl, hp⟩, by simp [Component.enter]⟩

/-- Past a directory's path, plain names stop at the directory with a prefix of the names. -/
theorem mem_stops_append_map_normal {cwd L : Location} {p : String} (hL : L = Path.denote cwd p)
    {names : List String} {y : Location}
    (hy : y ∈ stops cwd (Path.components p ++ names.map .normal)) :
    y ∈ stops cwd (Path.components p) ∨ ∃ s, s <+: names ∧ y = L ++ s := by
  rw [stops_append] at hy
  rcases List.mem_append.mp hy with hy | hy
  · exact .inl (List.dropLast_subset _ hy)
  · rw [← Path.denote, ← hL] at hy
    exact .inr (eq_append_of_mem_stops_map_normal hy)

theorem ne_empty_of_directoryAt {cwd L : Location} {p : String}
    (h : t.directoryAt cwd p = .ok L) : p ≠ "" := by
  rintro rfl
  simp [directoryAt, resolve, bind, Except.bind] at h

end FileTree

namespace Path

/-- The destination joined with a relative path of the plain names `r` leads where the
destination and the names lead, through the folder of the destination and the names but the
last. -/
theorem exportTarget (cwd : List String) {dest rel : String} {r : List String} (hd : dest ≠ "")
    (hrne : r ≠ []) (habs : isAbsolute rel = false) (hnamed : namedComponents rel = r.map .normal) :
    ∃ q, parent? (join dest rel) = some q ∧
      components q = components dest ++ r.dropLast.map .normal ∧
      components (join dest rel) = components q ++ [.normal (r.getLast hrne)] ∧
      denote cwd (join dest rel) = denote cwd dest ++ r := by
  have hK : components (join dest rel) = components dest ++ r.map .normal := by
    rw [components_join_relative hd habs, hnamed]
  have hroot : components (join dest rel) ≠ [.root] := by
    intro h
    have hlast := congrArg List.getLast? (hK.symm.trans h)
    obtain ⟨r', a, rfl⟩ := List.eq_nil_or_concat r |>.resolve_left hrne
    simp at hlast
  obtain ⟨q, hq⟩ := parent?_isSome (by simp [hK, hrne]) hroot
  have hqK : components q = components dest ++ r.dropLast.map .normal := by
    rw [components_parent? hq, hK, List.dropLast_append_of_ne_nil (by simpa using hrne),
      List.map_dropLast]
  refine ⟨q, hq, hqK, ?_, ?_⟩
  · rw [hK, hqK, List.append_assoc]
    congr 1
    conv_lhs => rw [← List.dropLast_concat_getLast hrne]
    simp
  · rw [denote, hK, List.foldl_append, foldl_enter_normal]
    rfl

end Path

/-- With the folder's stops directories, the destination joined with a relative path that ends
in a plain name resolves where it leads, without asking for a directory. -/
theorem FileTree.resolve_exportTarget {u : FileTree} {cwd : Location} {dest rel q : String}
    {r : List String} (hrne : r ≠ [])
    (hqT : Path.components (Path.join dest rel) = Path.components q ++ [.normal (r.getLast hrne)])
    (habs : Path.isAbsolute rel = false) {last : String} (hlast : Path.IsPlainName last)
    (hsuf : last.toList <:+ rel.toList)
    (hdirs : ∀ y ∈ stops cwd (Path.components q), u.get? y = some .directory) :
    u.resolve cwd (Path.join dest rel) = .ok ⟨Path.denote cwd (Path.join dest rel), false⟩ := by
  have hdesc : u.descend cwd (Path.components (Path.join dest rel)) =
      .ok (Path.denote cwd (Path.join dest rel)) := by
    refine descend_eq_ok_iff.mpr ⟨fun y hy => ?_, rfl⟩
    rw [hqT, stops_append_single _ _ (by simp), List.dropLast_concat] at hy
    exact hdirs y hy
  have htext : Path.join dest rel ≠ "" := ne_empty_of_components_ne_nil (by simp [hqT])
  rw [resolve_of_descend htext hdesc,
    Path.asksForDirectory_eq_false hlast (hsuf.trans (Path.suffix_join dest habs))]

/-- Where an export runs: a well-formed tree of plain names, a working directory that is a
directory, and the root and the destination directories, at `Lroot` and `Ld`. -/
structure ExportSetting (t : FileTree) (cwd : Location) (root dest : String)
    (Lroot Ld : Location) : Prop where
  wellFormed : t.WellFormed
  plainNames : t.PlainNames
  cwd_dir : t.get? cwd = some .directory
  root_dir : t.directoryAt cwd root = .ok Lroot
  dest_dir : t.directoryAt cwd dest = .ok Ld

/-- The setting read off the entries: every entry's names plain. -/
theorem exportSetting_iff {t : FileTree} {cwd : Location} {root dest : String}
    {Lroot Ld : Location} :
    ExportSetting t cwd root dest Lroot Ld ↔
      t.WellFormed ∧ (∀ e ∈ t.entries, FileTree.PlainLocation e.1) ∧
        t.get? cwd = some .directory ∧ t.directoryAt cwd root = .ok Lroot ∧
        t.directoryAt cwd dest = .ok Ld := by
  constructor
  · intro hs
    refine ⟨hs.wellFormed, fun e he => ?_, hs.cwd_dir, hs.root_dir, hs.dest_dir⟩
    obtain ⟨n, hn⟩ := Option.ne_none_iff_exists'.mp (FileTree.get?_ne_none_of_mem he)
    exact hs.plainNames _ _ hn
  · rintro ⟨hwf, hplain, hcwd, hroot, hdest⟩
    exact ⟨hwf, FileTree.plainNames_of_entries hplain, hcwd, hroot, hdest⟩

instance {t : FileTree} {cwd : Location} {root dest : String} {Lroot Ld : Location} :
    Decidable (ExportSetting t cwd root dest Lroot Ld) :=
  decidable_of_iff _ exportSetting_iff.symm

/-- The copies into `Ld` of the files at the names `sel` below `Lroot` stay apart: no folder a
copy needs holds a file, no copy lands on a directory, and no copy lands on a file copied. -/
structure ExportApart (t : FileTree) (Lroot Ld : Location) (sel : List String → Prop) :
    Prop where
  folders_clear : ∀ r, sel r → ∀ s, s <+: r → s ≠ r → t.NoFileAt (Ld ++ s)
  target_not_dir : ∀ r, sel r → t.get? (Ld ++ r) ≠ some .directory
  target_not_source : ∀ r r', sel r → sel r' → Ld ++ r ≠ Lroot ++ r'

namespace ExportApart

variable {t : FileTree} {Lroot Ld : Location}

theorem mono {sel sel' : List String → Prop} (h : ExportApart t Lroot Ld sel)
    (hsel : ∀ r, sel' r → sel r) : ExportApart t Lroot Ld sel' where
  folders_clear r hr := h.folders_clear r (hsel r hr)
  target_not_dir r hr := h.target_not_dir r (hsel r hr)
  target_not_source r r' hr hr' := h.target_not_source r r' (hsel r hr) (hsel r' hr')

/-- The copies of every file below `Lroot` stay apart when those of the file entries below it
do, each at its names past `Lroot`. -/
theorem of_entries
    (h : ∀ e ∈ t.entries, Lroot <+: e.1 → e.2.isDirectory = false →
      (∀ s ∈ (e.1.drop Lroot.length).inits, s ≠ e.1.drop Lroot.length → t.NoFileAt (Ld ++ s)) ∧
      t.get? (Ld ++ e.1.drop Lroot.length) ≠ some .directory ∧
      ∀ e' ∈ t.entries, Lroot <+: e'.1 → e'.2.isDirectory = false →
        Ld ++ e.1.drop Lroot.length ≠ e'.1) :
    ExportApart t Lroot Ld fun r => ∃ n, t.get? (Lroot ++ r) = some n ∧ n.isDirectory = false := by
  -- a file below `Lroot` is an entry, at `Lroot` and its names past it
  have hentry : ∀ r, (∃ n, t.get? (Lroot ++ r) = some n ∧ n.isDirectory = false) →
      ∃ n, (Lroot ++ r, n) ∈ t.entries ∧ n.isDirectory = false := by
    rintro r ⟨n, hn, hnd⟩
    have hne : Lroot ++ r ≠ [] := fun h0 => by
      rw [h0, FileTree.get?_root] at hn
      cases hn
      simp [Node.isDirectory] at hnd
    exact ⟨n, FileTree.mem_of_get? hn hne, hnd⟩
  have hcond : ∀ r, (∃ n, t.get? (Lroot ++ r) = some n ∧ n.isDirectory = false) →
      (∀ s ∈ r.inits, s ≠ r → t.NoFileAt (Ld ++ s)) ∧ t.get? (Ld ++ r) ≠ some .directory ∧
        ∀ e' ∈ t.entries, Lroot <+: e'.1 → e'.2.isDirectory = false → Ld ++ r ≠ e'.1 := by
    intro r hr
    obtain ⟨n, hmem, hnd⟩ := hentry r hr
    have hc := h _ hmem (List.prefix_append _ _) hnd
    rwa [List.drop_left] at hc
  refine ⟨fun r hr s hs hne => (hcond r hr).1 s (List.mem_inits s r |>.mpr hs) hne,
    fun r hr => (hcond r hr).2.1, fun r r' hr hr' => ?_⟩
  obtain ⟨n', hmem', hnd'⟩ := hentry r' hr'
  exact (hcond r hr).2.2 _ hmem' (List.prefix_append _ _) hnd'

end ExportApart

/-- A file the export copies: its path lies below the root by the plain names `r`, resolves to
where they lead without asking for a directory, and a file is there. -/
structure ExportSource (t : FileTree) (cwd : Location) (root : String) (Lroot : Location)
    (x : String) (r : List String) : Prop where
  names : Path.namesBelow? root x = some r
  resolve : t.resolve cwd x = .ok ⟨Lroot ++ r, false⟩
  file : ∃ n, t.get? (Lroot ++ r) = some n ∧ n.isDirectory = false

/-- What copying the files at the names `done` below the root has made of the tree `t`: the
working directory is `cwd`, every change lies strictly below the destination `Ld` where no
directory was, each copy holds what the file below the root `Lroot` holds, and every other change
is a folder on the way to a copy, made where nothing was. -/
structure ExportProgress (t : FileTree) (cwd Lroot Ld : Location) (done : List (List String))
    (m : Machine) : Prop where
  cwd_eq : m.cwd = cwd
  edits : FileTree.Edits (FileTree.Below Ld) t m.files
  copies : ∀ r ∈ done, m.files.get? (Ld ++ r) = t.get? (Lroot ++ r)
  made : ∀ y, m.files.get? y ≠ t.get? y → (∃ r ∈ done, y = Ld ++ r) ∨
    (m.files.get? y = some .directory ∧ t.get? y = none ∧ ∃ r ∈ done, y <+: Ld ++ r)

theorem ExportProgress.start {t : FileTree} {cwd Lroot Ld : Location} {m : Machine}
    (hcwd : m.cwd = cwd) (hm : m.files = t) : ExportProgress t cwd Lroot Ld [] m where
  cwd_eq := hcwd
  edits := hm ▸ FileTree.Edits.refl _ _
  copies := fun _ h => (List.not_mem_nil h).elim
  made := fun _ hy => absurd (hm ▸ rfl) hy

section Copies

variable {t : FileTree} {cwd Lroot Ld : Location} {root dest : String}
  {sel : List String → Prop} (hs : ExportSetting t cwd root dest Lroot Ld)
include hs

/-- The root is a directory, so a file below it lies at some name. -/
theorem ExportSource.ne_nil {x : String} {r : List String}
    (hx : ExportSource t cwd root Lroot x r) : r ≠ [] := by
  rintro rfl
  obtain ⟨n, hn, hnd⟩ := hx.file
  rw [List.append_nil, FileTree.get?_of_directoryAt hs.root_dir] at hn
  cases hn
  simp [Node.isDirectory] at hnd

namespace ExportProgress

variable {done : List (List String)} {m : Machine} (hp : ExportProgress t cwd Lroot Ld done m)
include hp

/-- The place of a copy that holds no directory is not on the way to its folder: the
destination's stops are directories, and the folder's own lie above the copy. -/
theorem target_not_mem_folder {r : List String} (hrne : r ≠ []) {q : String}
    (hqK : Path.components q = Path.components dest ++ r.dropLast.map .normal)
    (hnd : m.files.get? (Ld ++ r) ≠ some .directory) :
    Ld ++ r ∉ FileTree.stops cwd (Path.components q) := by
  obtain ⟨hLd, hdirs⟩ := FileTree.directoryAt_stops hs.dest_dir
  intro hmem
  rw [hqK] at hmem
  rcases FileTree.mem_stops_append_map_normal hLd hmem with hmem | ⟨p, hpre, heq⟩
  · exact hnd (hp.edits.get?_directory (hdirs _ hmem))
  · have hlen := congrArg List.length heq
    have hle := hpre.length_le
    simp only [List.length_append, List.length_dropLast] at hlen hle
    have := List.length_pos_of_ne_nil hrne
    omega

variable (hdone : ∀ r' ∈ done, sel r' ∧ ∃ n, t.get? (Lroot ++ r') = some n ∧ n.isDirectory = false)
include hdone

/-- Once the folder `q` of a copy at the names `r` is made and the copy set, every change is
still a copy or a folder on the way to one made where nothing was: the folders made lie on the
way to the new copy, at stops that held no file. -/
theorem made_step {r : List String} {q : String}
    (hqK : Path.components q = Path.components dest ++ r.dropLast.map .normal) {t' : FileTree}
    (hclear : ∀ y ∈ FileTree.stops cwd (Path.components q), m.files.NoFileAt y)
    (hfold : ∀ y ∈ FileTree.stops cwd (Path.components q), t'.get? y = some .directory)
    (hframe : ∀ y, y ∉ FileTree.stops cwd (Path.components q) → t'.get? y = m.files.get? y)
    (n : Node) {y : Location} (hy : (t'.set (Ld ++ r) n).get? y ≠ t.get? y) :
    (∃ r' ∈ done ++ [r], y = Ld ++ r') ∨ ((t'.set (Ld ++ r) n).get? y = some .directory ∧
      t.get? y = none ∧ ∃ r' ∈ done ++ [r], y <+: Ld ++ r') := by
  obtain ⟨hLd, hdirs⟩ := FileTree.directoryAt_stops hs.dest_dir
  have hlast : r ∈ done ++ [r] := List.mem_append_right _ (List.mem_singleton_self r)
  by_cases hyr : y = Ld ++ r
  · exact .inl ⟨r, hlast, hyr⟩
  rw [FileTree.get?_set_ne _ _ hyr] at hy ⊢
  by_cases hys : y ∈ FileTree.stops cwd (Path.components q)
  · -- a folder made for this copy, where the tree held nothing
    have hnone : t.get? y = none := by
      by_cases hm : m.files.get? y = t.get? y
      · rcases FileTree.noFileAt_iff.mp (hclear y hys) with h | h
        · rwa [← hm]
        · rw [hfold y hys, ← hm, h] at hy
          exact absurd rfl hy
      · rcases hp.made y hm with ⟨r', hr', rfl⟩ | ⟨-, h, -⟩
        · -- a copy is a file, and the folder's stops hold none
          obtain ⟨-, n', hn', hnd'⟩ := hdone r' hr'
          have hc := hp.copies r' hr'
          rw [hn'] at hc
          cases hclear _ hys n' hc
          simp [Node.isDirectory] at hnd'
        · exact h
    refine .inr ⟨hfold y hys, hnone, ?_⟩
    rw [hqK] at hys
    rcases FileTree.mem_stops_append_map_normal hLd hys with hys | ⟨p, hpre, rfl⟩
    · rw [hdirs y hys] at hnone
      cases hnone
    · exact ⟨r, hlast, (List.prefix_append_right_inj Ld).mpr (hpre.trans (List.dropLast_prefix r))⟩
  · rw [hframe y hys] at hy ⊢
    rcases hp.made y hy with ⟨r', hr', h⟩ | ⟨hd, hn, r', hr', h⟩
    · exact .inl ⟨r', List.mem_append_left _ hr', h⟩
    · exact .inr ⟨hd, hn, r', List.mem_append_left _ hr', h⟩

variable (ha : ExportApart t Lroot Ld sel)
include ha

omit hs in
/-- A file the export copies still holds what it held: no copy lands on it, and folders are
made only where nothing was. -/
theorem get?_source {r : List String} (hr : sel r)
    (hfile : ∃ n, t.get? (Lroot ++ r) = some n ∧ n.isDirectory = false) :
    m.files.get? (Lroot ++ r) = t.get? (Lroot ++ r) := by
  by_contra hne
  rcases hp.made _ hne with ⟨r', hr', heq⟩ | ⟨-, hnone, -⟩
  · exact ha.target_not_source r' r (hdone r' hr').1 hr heq.symm
  · obtain ⟨n, hn, -⟩ := hfile
    rw [hn] at hnone
    cases hnone

/-- The stops of the destination with names short of a file's are clear of files: directories
of the destination, places the tree kept clear, or folders made for an earlier copy, since no
copy lies on the way to another file. -/
theorem noFileAt_stops {r : List String} (hr : sel r)
    (hfile : ∃ n, t.get? (Lroot ++ r) = some n ∧ n.isDirectory = false) {s : List String}
    (hsr : s <+: r) (hlen : s.length < r.length) :
    ∀ y ∈ FileTree.stops cwd (Path.components dest ++ s.map .normal), m.files.NoFileAt y := by
  obtain ⟨hLd, hdirs⟩ := FileTree.directoryAt_stops hs.dest_dir
  intro y hy
  rcases FileTree.mem_stops_append_map_normal hLd hy with hy | ⟨p, hps, rfl⟩
  · exact FileTree.noFileAt_iff.mpr (.inr (hp.edits.get?_directory (hdirs y hy)))
  have hpne : p ≠ r := by
    rintro rfl
    have := hps.length_le
    omega
  intro n hn
  by_cases hm : m.files.get? (Ld ++ p) = t.get? (Ld ++ p)
  · exact ha.folders_clear r hr p (hps.trans hsr) hpne n (hm ▸ hn)
  rcases hp.made _ hm with ⟨r', hr', heq⟩ | ⟨hdir, -⟩
  · -- a copy on the way to the file would be a file with something below it
    obtain ⟨-, n', hn', hnd'⟩ := hdone r' hr'
    obtain ⟨n'', hn'', -⟩ := hfile
    have hpr : p = r' := List.append_cancel_left heq
    subst hpr
    exact absurd (hs.wellFormed.eq_of_prefix_file hn' hnd' hn'' (hps.trans hsr)) hpne
  · rw [hdir] at hn
    exact (Option.some.inj hn).symm

/-- The next copy's place holds no directory: the tree held none there, and it is neither a copy
made nor a folder made on the way to one, since nothing lies below a file. -/
theorem target_not_dir {r : List String} (hr : sel r)
    (hfile : ∃ n, t.get? (Lroot ++ r) = some n ∧ n.isDirectory = false) (hnew : r ∉ done) :
    m.files.get? (Ld ++ r) ≠ some .directory := by
  intro hdir
  by_cases hm : m.files.get? (Ld ++ r) = t.get? (Ld ++ r)
  · exact ha.target_not_dir r hr (hm ▸ hdir)
  rcases hp.made _ hm with ⟨r', hr', heq⟩ | ⟨-, -, r', hr', hpre⟩
  · exact hnew (List.append_cancel_left heq ▸ hr')
  · obtain ⟨n', hn', hnd'⟩ := hfile
    obtain ⟨-, n'', hn'', -⟩ := hdone r' hr'
    have heq := hs.wellFormed.eq_of_prefix_file hn' hnd' hn''
      ((List.prefix_append_right_inj Ld).mp hpre)
    exact hnew (heq ▸ hr')

/-- One more file copied: its folder is made, the copy is set to the file's node, and the
progress covers it too. -/
theorem step {x : String} {r : List String} (hx : ExportSource t cwd root Lroot x r) (hr : sel r)
    (hnew : r ∉ done) {rel : String} (hrel : Path.stripPrefixText? x root = some rel) :
    ∃ q t' t'', Path.parent? (Path.join dest rel) = some q ∧
      m.files.createDirAll m.cwd q = .ok t' ∧
      t'.copyFile m.cwd x (Path.join dest rel) = .ok t'' ∧
      ExportProgress t cwd Lroot Ld (done ++ [r]) { m with files := t'' } := by
  have hrne := hx.ne_nil hs
  obtain ⟨hLd, hdirs⟩ := FileTree.directoryAt_stops hs.dest_dir
  obtain ⟨hrp, hxK⟩ := Path.namesBelow?_eq_some.mp hx.names
  obtain ⟨n, hn, hnd⟩ := hx.file
  obtain ⟨rel', hrel', habs, hnamed, -, last, hlast, hsuf⟩ := Path.stripPrefixText?_below hrne hxK
  rw [hrel, Option.some.injEq] at hrel'
  subst hrel'
  obtain ⟨q, hq, hqK, hqT, hTden⟩ :=
    Path.exportTarget cwd (FileTree.ne_empty_of_directoryAt hs.dest_dir) hrne habs hnamed
  rw [← hLd] at hTden
  rw [hp.cwd_eq]
  -- the folder's stops are clear of files, so it is made
  have hclear : ∀ y ∈ FileTree.stops cwd (Path.components q), m.files.NoFileAt y := by
    rw [hqK]
    exact hp.noFileAt_stops hs hdone ha hr ⟨n, hn, hnd⟩ (List.dropLast_prefix r)
      (by have := List.length_pos_of_ne_nil hrne; simp only [List.length_dropLast]; omega)
  have hcwd : m.files.get? cwd = some .directory := hp.edits.get?_directory hs.cwd_dir
  obtain ⟨t', hcd, hfold, hframe⟩ := FileTree.createDirAll_stops hcwd hclear
  -- a file is no stop of the folder
  have hnotstop : ∀ y n', m.files.get? y = some n' → n'.isDirectory = false →
      y ∉ FileTree.stops cwd (Path.components q) := fun y n' hy hnd' hmem => by
    have := hclear y hmem n' hy
    subst this
    simp [Node.isDirectory] at hnd'
  have hkeep : ∀ y, t.get? y = some .directory → t'.get? y = some .directory := fun y hy =>
    FileTree.dirs_of_made hfold hframe y (hp.edits.get?_directory hy)
  have hsrc : t'.get? (Lroot ++ r) = some n := by
    have hm : m.files.get? (Lroot ++ r) = some n := by
      rw [hp.get?_source hdone ha hr ⟨n, hn, hnd⟩, hn]
    rw [hframe _ (hnotstop _ _ hm hnd), hm]
  have htd := hp.target_not_dir hs hdone ha hr ⟨n, hn, hnd⟩ hnew
  have htstop := hp.target_not_mem_folder hs hrne hqK htd
  have hcopy := FileTree.copyFile_of_resolve (FileTree.resolve_of_dirs_kept hx.resolve hkeep) hsrc
    hnd (hTden ▸ FileTree.resolve_exportTarget hrne hqT habs hlast hsuf hfold)
    (by rw [hframe _ htstop]; exact htd) (ha.target_not_source r r hr hr)
  refine ⟨q, t', _, hq, hcd, hcopy, ⟨rfl, ?_, ?_, ?_⟩⟩
  · -- the folders and the copy lie strictly below the destination
    have hcov := FileTree.covers_below (hs.plainNames cwd _ hs.cwd_dir) hdirs
      (by simp : ∀ n ∈ ([] : List String), Path.IsPlainName n)
    rw [List.map_nil, List.append_nil, ← hLd] at hcov
    refine (hp.edits.trans ((FileTree.edits_createDirAll hcd).mono fun y hy => ?_)).trans
      (FileTree.Edits.set ?_ (by rw [hframe _ htstop]; exact htd) n)
    · exact hcov.stops m.files hp.edits r.dropLast (fun a ha => hrp a (List.dropLast_subset _ ha))
        y (hqK ▸ hy.1) hy.2
    · have hbelow := hcov.below r hrne hrp
      rwa [← Path.denote, ← hLd] at hbelow
  · intro r' hr'
    show (t'.set (Ld ++ r) n).get? (Ld ++ r') = _
    rcases List.mem_append.mp hr' with hr' | hr'
    · have hne : Ld ++ r' ≠ Ld ++ r := fun h => hnew (List.append_cancel_left h ▸ hr')
      obtain ⟨-, n', hn', hnd'⟩ := hdone r' hr'
      have hc := hp.copies r' hr'
      rw [hn'] at hc
      rw [FileTree.get?_set_ne _ _ hne, hframe _ (hnotstop _ _ hc hnd'), hc, hn']
    · rw [List.mem_singleton.mp hr', FileTree.get?_set_self _ _ _ (by simp [hrne]), hn]
  · intro y hy
    exact hp.made_step hs hdone hqK hclear hfold hframe n hy

end ExportProgress

end Copies

-- ============================================================================
-- The export as a search loop and a copy loop
-- ============================================================================

/-- One pattern searched below the root: the files it selects added to those found, or its
parse error. -/
def exportSearchBody (root pattern : String) (found : List String) :
    Act (ForInStep (List String)) := do
  let m ← get
  match Glob.search m.files m.cwd (Path.join root pattern) with
  | .error e => throw (invalidExportPattern pattern e)
  | .ok paths => pure (.yield (found ++ selectedFiles m.files m.cwd paths))

/-- One file found copied to its path relative to the root below the destination, after the
folders it needs; the relative paths copied so far. -/
def exportCopyBody (root dest file : String) (exported : List String) :
    Act (ForInStep (List String)) :=
  match Path.stripPrefixText? file root with
  | none => throw (.io (file ++ ": prefix not found"))
  | some rel => do
    match Path.parent? (Path.join dest rel) with
    | some parent => Act.change Error.ofFault (·.createDirAll · parent)
    | none => pure ()
    Act.change Error.ofFault (·.copyFile · file (Path.join dest rel))
    pure (.yield (exported ++ [rel]))

/-- Exporting is the search of every pattern followed by the copy of every file found, each
path once, in path order. -/
theorem exportFiles_eq (root : String) (patterns : List String) (dest : String) :
    exportFiles root patterns dest =
      forIn patterns [] (exportSearchBody root) >>= fun found =>
        forIn (sortPaths (dedupePaths found)) [] (exportCopyBody root dest) >>= pure := by
  -- unfolded on both sides, the two loops' bodies meet without unfolding the monad
  unfold exportFiles exportSearchBody exportCopyBody
  rfl

theorem exportSearchBody_run (root pattern : String) (found : List String) (m : Machine) :
    (exportSearchBody root pattern found).run m =
      ((exportSearchStep m.files m.cwd root found pattern).map .yield, m) := by
  unfold exportSearchBody exportSearchStep
  rw [Act.run_bind, Act.run_get]
  dsimp only
  cases Glob.search m.files m.cwd (Path.join root pattern) <;> rfl

/-- The copy of a file: the folder of its target is made, then the file is copied there, and
its relative path is added to those copied. -/
theorem exportCopyBody_run {root dest file rel q : String} {exported : List String} {m : Machine}
    {t' t'' : FileTree} (hrel : Path.stripPrefixText? file root = some rel)
    (hq : Path.parent? (Path.join dest rel) = some q) (hcd : m.files.createDirAll m.cwd q = .ok t')
    (hcp : t'.copyFile m.cwd file (Path.join dest rel) = .ok t'') :
    (exportCopyBody root dest file exported).run m =
      (.ok (.yield (exported ++ [rel])), { m with files := t'' }) := by
  unfold exportCopyBody
  rw [hrel]
  dsimp only
  rw [hq]
  simp only [Act.run_bind, Act.run_change, hcd, hcp, Act.run_pure]

/-- The first pattern whose search is refused fails the export with its parse error, before
anything is written. -/
theorem exportFiles_run_of_refused {root dest : String} {pre post : List String}
    {pattern : String} {m : Machine} {e : Glob.PatternError}
    (hpre : ∀ q ∈ pre, ∃ paths, Glob.search m.files m.cwd (Path.join root q) = .ok paths)
    (he : Glob.search m.files m.cwd (Path.join root pattern) = .error e) :
    (exportFiles root (pre ++ pattern :: post) dest).run m =
      (.error (invalidExportPattern pattern e), m) := by
  rw [exportFiles_eq, Act.run_bind, Act.forIn_run_of_reads _ [] _
    (exportSearchStep m.files m.cwd root) m fun x _ s => exportSearchBody_run root x s m,
    foldlM_exportSearchStep_error he pre [] hpre]

/-- The names below the root of the files an export selects: a file lies there, at or below the
location that a path found by some pattern's search names. -/
def FileTree.ExportSelects (t : FileTree) (cwd : Location) (root : String)
    (patterns names : List String) : Prop :=
  (∃ n, t.get? (Path.denote cwd root ++ names) = some n ∧ n.isDirectory = false) ∧
    ∃ q ∈ patterns, ∃ paths, Glob.search t cwd (Path.join root q) = .ok paths ∧
      ∃ p ∈ paths, (∃ n, t.metadata cwd p = .ok n) ∧
        Path.denote cwd p <+: Path.denote cwd root ++ names

/-- Where every pattern's search finds paths below the root, so does the search of a pattern
that answered `paths`. -/
theorem found_below_root {t : FileTree} {cwd : Location} {root : String} {patterns : List String}
    (hfound : ∀ q ∈ patterns, ∃ paths, Glob.search t cwd (Path.join root q) = .ok paths ∧
      ∀ p ∈ paths, (Path.namesBelow? root p).isSome)
    {q : String} (hq : q ∈ patterns) {paths : List String}
    (hsearch : Glob.search t cwd (Path.join root q) = .ok paths) :
    ∀ p ∈ paths, (Path.namesBelow? root p).isSome := by
  obtain ⟨paths', hsearch', hbelow⟩ := hfound q hq
  rw [hsearch] at hsearch'
  cases hsearch'
  exact hbelow

section Run

variable {t : FileTree} {cwd Lroot Ld : Location} {root dest : String} {patterns : List String}
  (hs : ExportSetting t cwd root dest Lroot Ld)
  (hfound : ∀ q ∈ patterns, ∃ paths, Glob.search t cwd (Path.join root q) = .ok paths ∧
    ∀ p ∈ paths, (Path.namesBelow? root p).isSome)
include hs

/-- A file that paths found below the root select is a file the export copies. -/
theorem exportSource_of_selected {paths : List String}
    (hpaths : ∀ p ∈ paths, (Path.namesBelow? root p).isSome) {f : String}
    (hf : f ∈ selectedFiles t cwd paths) :
    ExportSource t cwd root Lroot f ((Path.namesBelow? root f).getD []) := by
  obtain ⟨p, hp, ⟨node, hm⟩, s, n, hget, hnd, rfl⟩ := (FileTree.mem_selectedFiles hs.wellFormed).mp hf
  obtain ⟨pre, hpre⟩ := Option.isSome_iff_exists.mp (hpaths p hp)
  obtain ⟨hnames, hres⟩ := FileTree.selected_below hs.wellFormed hs.plainNames hpre hm hget hnd
  have hden : Path.denote cwd p = Lroot ++ pre := by
    rw [Path.denote_of_namesBelow? hpre, ← (FileTree.directoryAt_stops hs.root_dir).1]
  rw [hnames, Option.getD_some]
  rw [hden, List.append_assoc] at hres hget
  exact ⟨hnames, hres, n, hget, hnd⟩

include hfound

/-- The files found are the files the patterns' paths select, each a file the export copies. -/
theorem exportSearch_found :
    ∃ found, patterns.foldlM (exportSearchStep t cwd root) [] = .ok found ∧
      (∀ f, f ∈ found ↔ ∃ q ∈ patterns, ∃ paths,
        Glob.search t cwd (Path.join root q) = .ok paths ∧ f ∈ selectedFiles t cwd paths) ∧
      ∀ f ∈ found, ExportSource t cwd root Lroot f ((Path.namesBelow? root f).getD []) := by
  obtain ⟨found, hfold, hmem⟩ := foldlM_exportSearchStep_ok patterns []
    fun q hq => (hfound q hq).imp fun _ h => h.1
  have hmem' : ∀ f, f ∈ found ↔ ∃ q ∈ patterns, ∃ paths,
      Glob.search t cwd (Path.join root q) = .ok paths ∧ f ∈ selectedFiles t cwd paths := by
    intro f
    rw [hmem]
    simp
  refine ⟨found, hfold, hmem', fun f hf => ?_⟩
  obtain ⟨q, hq, paths, hsearch, hsel⟩ := (hmem' f).mp hf
  exact exportSource_of_selected hs (found_below_root hfound hq hsearch) hsel

/-- Each path found once, in path order, names a file below the root; exactly the names of the
files the export selects. -/
theorem exported_iff {found : List String}
    (hmem : ∀ f, f ∈ found ↔ ∃ q ∈ patterns, ∃ paths,
      Glob.search t cwd (Path.join root q) = .ok paths ∧ f ∈ selectedFiles t cwd paths)
    (names : List String) :
    (∃ x ∈ sortPaths (dedupePaths found), (Path.namesBelow? root x).getD [] = names) ↔
      t.ExportSelects cwd root patterns names := by
  have hLroot : Lroot = Path.denote cwd root := (FileTree.directoryAt_stops hs.root_dir).1
  have hperm := sortBy_perm (fun a b => !Path.lt b a) (dedupePaths found)
  obtain ⟨hsub, hcover, -⟩ := dedupePaths_spec found
  constructor
  · rintro ⟨x, hx, rfl⟩
    obtain ⟨q, hq, paths, hsearch, hsel⟩ := (hmem x).mp (hsub x (hperm.mem_iff.mp hx))
    obtain ⟨p, hp, ⟨node, hm⟩, s, n, hget, hnd, rfl⟩ :=
      (FileTree.mem_selectedFiles hs.wellFormed).mp hsel
    obtain ⟨pre, hpre⟩ := Option.isSome_iff_exists.mp (found_below_root hfound hq hsearch p hp)
    have hden := Path.denote_of_namesBelow? hpre cwd
    rw [(FileTree.selected_below hs.wellFormed hs.plainNames hpre hm hget hnd).1, Option.getD_some]
    rw [hden, List.append_assoc] at hget
    exact ⟨⟨n, hget, hnd⟩, q, hq, paths, hsearch, p, hp, ⟨node, hm⟩, by
      rw [hden]
      exact (List.prefix_append_right_inj _).mpr (List.prefix_append _ _)⟩
  · rintro ⟨⟨n, hget, hnd⟩, q, hq, paths, hsearch, p, hp, ⟨node, hm⟩, hpre⟩
    obtain ⟨pre, hpn⟩ := Option.isSome_iff_exists.mp (found_below_root hfound hq hsearch p hp)
    have hden := Path.denote_of_namesBelow? hpn cwd
    -- the file lies below the path found by the names after it
    obtain ⟨s, rfl⟩ : ∃ s, pre ++ s = names := by
      rw [hden] at hpre
      exact (List.prefix_append_right_inj _).mp hpre
    rw [← List.append_assoc, ← hden] at hget
    have hsel : s.foldl Path.join p ∈ selectedFiles t cwd paths :=
      (FileTree.mem_selectedFiles hs.wellFormed).mpr ⟨p, hp, ⟨node, hm⟩, s, n, hget, hnd, rfl⟩
    obtain ⟨x, hx, hxK⟩ := hcover _ ((hmem _).mpr ⟨q, hq, paths, hsearch, hsel⟩)
    refine ⟨x, hperm.mem_iff.mpr hx, ?_⟩
    rw [Path.namesBelow?_congr hxK,
      (FileTree.selected_below hs.wellFormed hs.plainNames hpn hm hget hnd).1, Option.getD_some]

end Run

section Copying

variable {t : FileTree} {cwd Lroot Ld : Location} {root dest : String} {found : List String}
  (hsrc : ∀ f ∈ found, ExportSource t cwd root Lroot f ((Path.namesBelow? root f).getD []))
include hsrc

/-- The files found, each path once, are files the export copies, in strictly increasing path
order. -/
theorem sortPaths_found :
    (∀ x ∈ sortPaths (dedupePaths found),
      ExportSource t cwd root Lroot x ((Path.namesBelow? root x).getD [])) ∧
    (sortPaths (dedupePaths found)).Pairwise (fun a b => Path.lt a b = true) := by
  have hperm := sortBy_perm (fun a b => !Path.lt b a) (dedupePaths found)
  obtain ⟨hsub, -, hdist⟩ := dedupePaths_spec found
  exact ⟨fun x hx => hsrc x (hsub x (hperm.mem_iff.mp hx)),
    sortPaths_pairwise (fun x hx => ⟨_, (hsrc x (hsub x hx)).names⟩) hdist⟩

variable (hs : ExportSetting t cwd root dest Lroot Ld)
include hs

/-- The copy loop over the files found, each path once in path order, succeeds when their copies
stay apart: it answers their paths relative to the root in that order and leaves the progress
of all of them. The loop's invariant is the progress of the files copied so far. -/
theorem exportCopies_run {sel : List String → Prop} (ha : ExportApart t Lroot Ld sel)
    (hsel : ∀ x ∈ sortPaths (dedupePaths found), sel ((Path.namesBelow? root x).getD []))
    {m : Machine} (htm : m.files = t) (hcm : m.cwd = cwd) :
    ∃ m', (forIn (sortPaths (dedupePaths found)) [] (exportCopyBody root dest)).run m =
        (.ok ((sortPaths (dedupePaths found)).map fun x => (Path.stripPrefixText? x root).getD ""),
          m') ∧
      ExportProgress t cwd Lroot Ld
        ((sortPaths (dedupePaths found)).map fun x => (Path.namesBelow? root x).getD []) m' := by
  obtain ⟨hL, hsorted⟩ := sortPaths_found hsrc
  have hstep : ∀ pre x post, sortPaths (dedupePaths found) = pre ++ x :: post →
      ∀ acc m₁, (acc = pre.map (fun x => (Path.stripPrefixText? x root).getD "") ∧
        ExportProgress t cwd Lroot Ld (pre.map fun x => (Path.namesBelow? root x).getD []) m₁) →
      ∃ acc' m₂, (exportCopyBody root dest x acc).run m₁ = (.ok (.yield acc'), m₂) ∧
        (acc' = (pre ++ [x]).map (fun x => (Path.stripPrefixText? x root).getD "") ∧
        ExportProgress t cwd Lroot Ld
          ((pre ++ [x]).map fun x => (Path.namesBelow? root x).getD []) m₂) := by
    rintro pre x post hLeq acc m₁ ⟨rfl, hp⟩
    have hpre : ∀ y ∈ pre, y ∈ sortPaths (dedupePaths found) := fun y hy =>
      hLeq ▸ List.mem_append_left _ hy
    have hxmem : x ∈ sortPaths (dedupePaths found) :=
      hLeq ▸ List.mem_append_right _ List.mem_cons_self
    have hx := hL x hxmem
    have hdone : ∀ r' ∈ pre.map fun x => (Path.namesBelow? root x).getD [],
        sel r' ∧ ∃ n, t.get? (Lroot ++ r') = some n ∧ n.isDirectory = false := by
      intro r' hr'
      obtain ⟨y, hy, rfl⟩ := List.mem_map.mp hr'
      exact ⟨hsel y (hpre y hy), (hL y (hpre y hy)).file⟩
    -- a file copied before comes earlier in path order, so its names differ
    have hnew : (Path.namesBelow? root x).getD [] ∉ pre.map fun x => (Path.namesBelow? root x).getD [] := by
      intro h
      obtain ⟨y, hy, hyx⟩ := List.mem_map.mp h
      have hlt := (List.pairwise_append.mp (hLeq ▸ hsorted)).2.2 y hy x List.mem_cons_self
      have hkeys := (Path.lt_iff_of_namesBelow? (hL y (hpre y hy)).names hx.names).mp hlt
      rw [hyx] at hkeys
      exact lt_irrefl _ hkeys
    obtain ⟨rel, hrel, -⟩ :=
      Path.stripPrefixText?_below (hx.ne_nil hs) (Path.namesBelow?_eq_some.mp hx.names).2
    obtain ⟨q, t', t'', hq, hcd, hcp, hp'⟩ := hp.step hs hdone ha hx (hsel x hxmem) hnew hrel
    refine ⟨_, _, exportCopyBody_run hrel hq hcd hcp, by simp [hrel], ?_⟩
    rw [List.map_append]
    exact hp'
  obtain ⟨rels, m', hrun, rfl, hprog⟩ := Act.forIn_run_of_step
    (fun pre acc m₁ => acc = pre.map (fun x => (Path.stripPrefixText? x root).getD "") ∧
      ExportProgress t cwd Lroot Ld (pre.map fun x => (Path.namesBelow? root x).getD []) m₁)
    ⟨rfl, ExportProgress.start hcm htm⟩ hstep
  exact ⟨m', hrun, hprog⟩

end Copying

/-- Exporting sources. If the search of some pattern below the root is refused, the export
fails with the parse error of the first such pattern and leaves the machine as it is. Otherwise,
in a well-formed tree of plain names with the root and the destination directories, when every
path the searches find lies below the root by plain names and the copies of the files selected
stay apart, the export succeeds: it answers, in strictly increasing path order, relative paths
whose names are exactly those of the files it selects (the files at or below a location a path
found names), each copy below the destination holds what its file below the root holds, nothing
outside the destination changes, and every change is a copy or a folder made where nothing
was. -/
theorem exportFiles_copies_selection (root : String) (patterns : List String) (dest : String)
    (m : Machine) :
    (∀ pre pattern post e, patterns = pre ++ pattern :: post →
      (∀ q ∈ pre, ∃ paths, Glob.search m.files m.cwd (Path.join root q) = .ok paths) →
      Glob.search m.files m.cwd (Path.join root pattern) = .error e →
      (exportFiles root patterns dest).run m = (.error (invalidExportPattern pattern e), m)) ∧
    ∀ Lroot Ld, ExportSetting m.files m.cwd root dest Lroot Ld →
      ExportApart m.files Lroot Ld (m.files.ExportSelects m.cwd root patterns) →
      (∀ q ∈ patterns, ∃ paths, Glob.search m.files m.cwd (Path.join root q) = .ok paths ∧
        ∀ p ∈ paths, (Path.namesBelow? root p).isSome) →
      ∃ rels m', (exportFiles root patterns dest).run m = (.ok rels, m') ∧ m'.cwd = m.cwd ∧
        rels.Pairwise (fun a b => Path.lt a b = true) ∧
        (∀ names, (∃ r ∈ rels, Path.components r = names.map .normal) ↔
          m.files.ExportSelects m.cwd root patterns names) ∧
        (∀ r ∈ rels, ∃ names, Path.components r = names.map .normal ∧
          m'.files.get? (Ld ++ names) = m.files.get? (Lroot ++ names)) ∧
        (∀ y, ¬ (Ld <+: y ∧ y ≠ Ld) → m'.files.get? y = m.files.get? y) ∧
        ∀ y, m'.files.get? y ≠ m.files.get? y →
          (∃ r ∈ rels, ∃ names, Path.components r = names.map .normal ∧ y = Ld ++ names) ∨
            (m'.files.get? y = some .directory ∧ m.files.get? y = none) := by
  refine ⟨fun pre pattern post e hpat hpre he => hpat ▸ exportFiles_run_of_refused hpre he, ?_⟩
  intro Lroot Ld hs ha hfound
  obtain ⟨found, hfold, hmem, hsrc⟩ := exportSearch_found hs hfound
  have hsel : ∀ x ∈ sortPaths (dedupePaths found),
      m.files.ExportSelects m.cwd root patterns ((Path.namesBelow? root x).getD []) :=
    fun x hx => (exported_iff hs hfound hmem _).mp ⟨x, hx, rfl⟩
  obtain ⟨m', hcopy, hprog⟩ := exportCopies_run hsrc hs ha hsel rfl rfl
  obtain ⟨hL, hsorted⟩ := sortPaths_found hsrc
  -- the path copied for a file found is its names below the root, as components
  have hrel : ∀ x ∈ sortPaths (dedupePaths found),
      Path.components ((Path.stripPrefixText? x root).getD "") =
        ((Path.namesBelow? root x).getD []).map .normal := by
    intro x hx
    obtain ⟨rel, hrel, -, -, hK, -⟩ := Path.stripPrefixText?_below ((hL x hx).ne_nil hs)
      (Path.namesBelow?_eq_some.mp (hL x hx).names).2
    rw [hrel, Option.getD_some, hK]
  refine ⟨(sortPaths (dedupePaths found)).map fun x => (Path.stripPrefixText? x root).getD "", m',
    ?_, hprog.cwd_eq, ?_, fun names => ?_, ?_, fun y hy => ?_, fun y hy => ?_⟩
  · rw [exportFiles_eq, Act.run_bind, Act.forIn_run_of_reads _ [] _
      (exportSearchStep m.files m.cwd root) m fun x _ s => exportSearchBody_run root x s m, hfold]
    dsimp only
    rw [Act.run_bind, hcopy]
    rfl
  · refine List.pairwise_map.mpr (hsorted.imp_of_mem fun {a b} ha hb hab => ?_)
    rw [Path.lt_iff_of_components (K := []) (by rw [List.nil_append]; exact hrel a ha)
      (by rw [List.nil_append]; exact hrel b hb)]
    exact (Path.lt_iff_of_namesBelow? (hL a ha).names (hL b hb).names).mp hab
  · rw [← exported_iff hs hfound hmem names]
    constructor
    · rintro ⟨r, hr, hK⟩
      obtain ⟨x, hx, rfl⟩ := List.mem_map.mp hr
      rw [hrel x hx] at hK
      exact ⟨x, hx, List.map_injective_iff.mpr (fun _ _ h => Component.normal.inj h) hK⟩
    · rintro ⟨x, hx, rfl⟩
      exact ⟨_, List.mem_map_of_mem hx, hrel x hx⟩
  · intro r hr
    obtain ⟨x, hx, rfl⟩ := List.mem_map.mp hr
    exact ⟨_, hrel x hx, hprog.copies _ (List.mem_map_of_mem hx)⟩
  · exact hprog.edits.get?_eq fun ⟨_, hpre, hne⟩ => hy ⟨hpre, hne⟩
  · -- a change is a copy of a file found, or a folder made where nothing was
    rcases hprog.made y hy with ⟨r', hr', rfl⟩ | ⟨hd, hn, -⟩
    · obtain ⟨x, hx, rfl⟩ := List.mem_map.mp hr'
      exact .inl ⟨_, List.mem_map_of_mem hx, _, hrel x hx, rfl⟩
    · exact .inr ⟨hd, hn⟩

/-- The sources of a library below `/src`: a C file and a header below `code`, a `meson.build`
and a `README.md`. The destination `/out` already holds an older `meson.build` and a
`notes.txt`, and the working directory is `/src`. -/
def exportSampleMachine : Machine where
  files := ⟨[(["src"], .directory), (["src", "code"], .directory),
    (["src", "code", "logic"], .directory), (["src", "code", "logic", "json.c"], .file "c" 420),
    (["src", "code", "logic", "fossil"], .directory),
    (["src", "code", "logic", "fossil", "media"], .directory),
    (["src", "code", "logic", "fossil", "media", "json.h"], .file "h" 420),
    (["src", "meson.build"], .file "project()" 420), (["src", "README.md"], .file "readme" 420),
    (["out"], .directory), (["out", "meson.build"], .file "old" 420),
    (["out", "notes.txt"], .file "keep" 420)]⟩
  cwd := ["src"]

/-- The patterns `code/**`, `meson.build` and `meson.options` select exactly the two sources
below `code` and `meson.build`: the paths found lie below the root and the copies stay apart in
a destination that already holds files, so the export's answer names the selection. -/
theorem sample_export_selects :
    ExportSetting exportSampleMachine.files ["src"] "/src" "/out" ["src"] ["out"] ∧
    ExportApart exportSampleMachine.files ["src"] ["out"]
      (exportSampleMachine.files.ExportSelects ["src"] "/src"
        ["code/**", "meson.build", "meson.options"]) ∧
    (∀ q ∈ ["code/**", "meson.build", "meson.options"], ∃ paths,
      Glob.search exportSampleMachine.files ["src"] (Path.join "/src" q) = .ok paths ∧
        ∀ p ∈ paths, (Path.namesBelow? "/src" p).isSome) ∧
    ∀ names, exportSampleMachine.files.ExportSelects ["src"] "/src"
        ["code/**", "meson.build", "meson.options"] names ↔
      names ∈ [["code", "logic", "fossil", "media", "json.h"], ["code", "logic", "json.c"],
        ["meson.build"]] := by
  have hs : ExportSetting exportSampleMachine.files ["src"] "/src" "/out" ["src"] ["out"] := by
    decide +kernel
  -- every file below the root is copied apart, so every file selected is
  have hden : Path.denote ["src"] "/src" = ["src"] := by decide +kernel
  have ha : ExportApart exportSampleMachine.files ["src"] ["out"]
      (exportSampleMachine.files.ExportSelects ["src"] "/src"
        ["code/**", "meson.build", "meson.options"]) := by
    refine (ExportApart.of_entries (by decide +kernel)).mono fun r hr => ?_
    have hfile := hr.1
    rwa [hden] at hfile
  have hfound : ∀ q ∈ ["code/**", "meson.build", "meson.options"], ∃ paths,
      Glob.search exportSampleMachine.files ["src"] (Path.join "/src" q) = .ok paths ∧
        ∀ p ∈ paths, (Path.namesBelow? "/src" p).isSome := by
    intro q hq
    simp only [List.mem_cons, List.not_mem_nil, or_false] at hq
    rcases hq with rfl | rfl | rfl
    · exact ⟨["/src/code/logic", "/src/code/logic/fossil", "/src/code/logic/fossil/media"],
        by decide +kernel, by decide +kernel⟩
    · exact ⟨["/src/meson.build"], by decide +kernel, by decide +kernel⟩
    · exact ⟨[], by decide +kernel, by decide +kernel⟩
  refine ⟨hs, ha, hfound, fun names => ?_⟩
  obtain ⟨rels, m', hrun, -, -, hiff, -, -, -⟩ :=
    (exportFiles_copies_selection "/src" _ "/out" exportSampleMachine).2 _ _ hs ha hfound
  -- the run answers the three relative paths
  have hanswer : ((exportFiles "/src" ["code/**", "meson.build", "meson.options"]
      "/out").run exportSampleMachine).1.toOption =
        some ["code/logic/fossil/media/json.h", "code/logic/json.c", "meson.build"] := by
    decide +kernel
  rw [hrun] at hanswer
  cases hanswer
  have h1 : Path.components "code/logic/fossil/media/json.h" =
      ["code", "logic", "fossil", "media", "json.h"].map .normal := by decide +kernel
  have h2 : Path.components "code/logic/json.c" = ["code", "logic", "json.c"].map .normal := by
    decide +kernel
  have h3 : Path.components "meson.build" = ["meson.build"].map .normal := by decide +kernel
  have hinj := List.map_injective_iff.mpr fun _ _ h => Component.normal.inj h
  refine (hiff names).symm.trans ?_
  simp only [List.mem_cons, List.not_mem_nil, or_false, exists_eq_or_imp, exists_eq_left, h1, h2,
    h3, hinj.eq_iff, eq_comm]

/-- A root `/src` with `meson.build` below it and `x.txt` beside it, and an empty destination
`/out/pkg`. -/
def parentPatternMachine : Machine where
  files := ⟨[(["out"], .directory), (["out", "pkg"], .directory), (["src"], .directory),
    (["src", "meson.build"], .file "project()" 420), (["x.txt"], .file "outside" 420)]⟩

/-- A pattern that climbs out of the root exports a file from outside it, and its copy lands
outside the destination: `../x.txt` below the root `/src` answers `../x.txt` and copies `/x.txt`
to `/out/x.txt`, beside the destination `/out/pkg`, where nothing was. -/
theorem export_pattern_leaves_destination :
    ExportSetting parentPatternMachine.files [] "/src" "/out/pkg" ["src"] ["out", "pkg"] ∧
      ((exportFiles "/src" ["../x.txt", "meson.build"] "/out/pkg").run
        parentPatternMachine).1.toOption = some ["../x.txt", "meson.build"] ∧
      parentPatternMachine.files.get? ["out", "x.txt"] = none ∧
      ((exportFiles "/src" ["../x.txt", "meson.build"] "/out/pkg").run
        parentPatternMachine).2.files.get? ["out", "x.txt"] = some (.file "outside" 420) :=
  ⟨by decide +kernel, by decide +kernel, by decide +kernel, by decide +kernel⟩

end BuildRecipe
