import BuildRecipe.Proofs.FileTree.Resolve
/-!
# Paths written back from their components

The components of a path text take one shape (`Path.Canonical`): a root or a `.` first, or
neither, and after it only `..` and plain names. A list of that shape is written back by
`Path.ofComponents` to a text with exactly those components (`components_ofComponents`),
so the parent of a path, which is written from its components, has the path's components
less the last (`components_parent?`).

A path built from a base by names (a walk's entry, a header's target) has the base's
components followed by the names (`components_foldl_join`, `components_join_intercalate`),
and since it ends in a plain name it does not ask for a directory
(`asksForDirectory_eq_false`). Two such paths below one base are in path order when the names
below the base are in increasing order (`lt_join_intercalate`).
-/

namespace BuildRecipe

namespace Path

-- ============================================================================
-- Segments of texts joined by slashes
-- ============================================================================

/-- No piece of a text split at a separator holds the separator. -/
theorem not_mem_of_mem_splitOn {a : Char} :
    ∀ {xs : List Char} {l : List Char}, l ∈ xs.splitOn a → a ∉ l
  | [], l, h => by simp [List.splitOn_nil] at h; simp [h]
  | x :: xs, l, h => by
    rw [List.splitOn_cons_eq_if_modifyHead] at h
    split at h
    · rcases List.mem_cons.mp h with rfl | h
      · simp
      · exact not_mem_of_mem_splitOn h
    · rename_i hx
      obtain ⟨hd, tl, hsplit⟩ := List.exists_cons_of_ne_nil (List.splitOn_ne_nil a xs)
      rw [hsplit, List.modifyHead_cons] at h
      rcases List.mem_cons.mp h with rfl | h
      · have hhd : a ∉ hd := not_mem_of_mem_splitOn (hsplit ▸ List.mem_cons_self ..)
        simp only [List.mem_cons, not_or]
        exact ⟨fun hax => hx (by simp [hax]), hhd⟩
      · exact not_mem_of_mem_splitOn (hsplit ▸ List.mem_cons_of_mem _ h)

theorem slash_not_mem_of_mem_segments {s seg : String} (h : seg ∈ segments s) :
    '/' ∉ seg.toList := by
  obtain ⟨l, hl, rfl⟩ := List.mem_map.mp h
  rw [String.toList_ofList]
  exact not_mem_of_mem_splitOn hl

/-- Texts without a slash, joined by slashes, split back into themselves. -/
theorem segments_intercalate {xs : List String} (hne : xs ≠ [])
    (hxs : ∀ x ∈ xs, '/' ∉ x.toList) : segments ("/".intercalate xs) = xs := by
  have hsplit : ("/".intercalate xs).toList.splitOn '/' = xs.map String.toList := by
    rw [String.toList_intercalate]
    exact List.splitOn_intercalate '/' (by simpa using hxs) (by simpa using hne)
  rw [segments, hsplit, List.map_map]
  conv_rhs => rw [← List.map_id xs]
  apply List.map_congr_left
  intro x _
  exact String.ofList_toList

theorem segments_slash_append (s : String) : segments ("/" ++ s) = "" :: segments s := by
  have hs : ("/" ++ s).toList = '/' :: s.toList := by simp [String.toList_append]
  rw [segments, hs, List.splitOn_cons_eq_if_modifyHead, if_pos (by rfl)]
  rfl

/-- A slash splits a text into the segments before it and the segments after it. -/
theorem segments_append_slash_append (p s : String) :
    segments (p ++ "/" ++ s) = segments p ++ segments s := by
  have hs : (p ++ "/" ++ s).toList = p.toList ++ '/' :: s.toList := by
    simp [String.toList_append]
  rw [segments, hs, List.splitOn_eq_splitOnP, List.splitOnP_append_cons _ _ (by simp),
    ← List.splitOn_eq_splitOnP, ← List.splitOn_eq_splitOnP, List.map_append]
  rfl

-- ============================================================================
-- The shape of a path's components
-- ============================================================================

/-- What a segment after the first can stand for: `..` or a plain name. -/
def Named : Component → Prop
  | .parent => True
  | .normal n => IsPlainName n
  | _ => False

/-- The shape of a path's components: a root or a `.` first, or neither, then only `..` and
plain names. -/
def Canonical (K : List Component) : Prop :=
  ∃ head rest, K = head ++ rest ∧ (head = [] ∨ head = [.root] ∨ head = [.current]) ∧
    ∀ c ∈ rest, Named c

/-- The component a segment stands for, read as `components` reads it. -/
theorem segment_text {c : Component} (hc : Named c) :
    (if c.text = "" ∨ c.text = "." then none
      else if c.text = ".." then some Component.parent else some (Component.normal c.text)) =
      some c := by
  cases c with
  | parent => rfl
  | normal n =>
    obtain ⟨-, hne, hdot, hdots⟩ := hc
    simp [Component.text, hne, hdot, hdots]
  | root | current => exact absurd hc id

theorem filterMap_texts {rest : List Component} (h : ∀ c ∈ rest, Named c) :
    (rest.map Component.text).filterMap (fun seg : String => if seg = "" ∨ seg = "." then none
      else if seg = ".." then some Component.parent else some (Component.normal seg)) = rest := by
  induction rest with
  | nil => rfl
  | cons c rest ih =>
    rw [List.map_cons, List.filterMap_cons, segment_text (h c (List.mem_cons_self ..))]
    dsimp only
    rw [ih fun c hc => h c (List.mem_cons_of_mem _ hc)]

theorem slash_not_mem_text {c : Component} (hc : Named c) : '/' ∉ c.text.toList := by
  cases c with
  | parent => decide
  | normal n => exact hc.1
  | root | current => exact absurd hc id

theorem canonical_components (s : String) : Canonical (components s) := by
  unfold components
  refine ⟨_, _, rfl, ?_, fun c hc => ?_⟩
  · cases habs : (s.toList.head? == some '/')
    · cases (segments s).head? == some "." <;> simp
    · simp
  · obtain ⟨seg, hseg, hc⟩ := List.mem_filterMap.mp hc
    have hslash := slash_not_mem_of_mem_segments hseg
    split at hc
    · cases hc
    · rename_i hempty
      split at hc
      · cases hc
        trivial
      · cases hc
        rw [not_or] at hempty
        exact ⟨hslash, hempty.1, hempty.2, by assumption⟩

theorem Canonical.dropLast {K : List Component} (h : Canonical K) : Canonical K.dropLast := by
  obtain ⟨head, rest, rfl, hhead, hrest⟩ := h
  by_cases hr : rest = []
  · subst hr
    refine ⟨[], [], ?_, .inl rfl, by simp⟩
    rcases hhead with rfl | rfl | rfl <;> rfl
  · refine ⟨head, rest.dropLast, List.dropLast_append_of_ne_nil hr, hhead,
      fun c hc => hrest c (List.dropLast_subset _ hc)⟩

-- ============================================================================
-- Writing components back
-- ============================================================================

theorem ofComponents_root (rest : List Component) :
    ofComponents (.root :: rest) = "/" ++ "/".intercalate (rest.map Component.text) := rfl

theorem ofComponents_of_head_ne_root {K : List Component} (hK : K.head? ≠ some .root) :
    ofComponents K = "/".intercalate (K.map Component.text) := by
  match K, hK with
  | [], _ => rfl
  | .current :: _, _ => rfl
  | .parent :: _, _ => rfl
  | .normal _ :: _, _ => rfl
  | .root :: _, h => exact absurd rfl h

/-- A text joined from pieces starts as its first piece does. -/
theorem head?_toList_intercalate {x : String} (xs : List String) (hx : x ≠ "") :
    ("/".intercalate (x :: xs)).toList.head? = x.toList.head? := by
  obtain ⟨ch, chs, hch⟩ := List.exists_cons_of_ne_nil fun h => hx (String.toList_eq_nil_iff.mp h)
  cases xs with
  | nil => rw [String.intercalate_singleton]
  | cons y ys => simp [String.intercalate_cons_cons, String.toList_append, hch]

theorem text_ne_empty {c : Component} (hc : Named c) : c.text ≠ "" := by
  cases c with
  | parent => decide
  | normal n => exact hc.2.1
  | root | current => exact absurd hc id

theorem head?_text {c : Component} (hc : Named c) : c.text.toList.head? ≠ some '/' := by
  intro h
  exact slash_not_mem_text hc (List.mem_of_head? h)

theorem text_ne_dot {c : Component} (hc : Named c) : c.text ≠ "." := by
  cases c with
  | parent => decide
  | normal n => exact hc.2.2.1
  | root | current => exact absurd hc id

/-- A list of the shape of a path's components is the components of the text it writes. -/
theorem components_ofComponents {K : List Component} (h : Canonical K) :
    components (ofComponents K) = K := by
  obtain ⟨head, rest, rfl, hhead, hrest⟩ := h
  have htexts : ∀ x ∈ rest.map Component.text, '/' ∉ x.toList := by
    intro x hx
    obtain ⟨c, hc, rfl⟩ := List.mem_map.mp hx
    exact slash_not_mem_text (hrest c hc)
  have hnamed := filterMap_texts hrest
  rcases hhead with rfl | rfl | rfl
  · -- neither a root nor `.` first: every segment is a component
    cases rest with
    | nil => decide
    | cons c rest' =>
      have hc := hrest c (List.mem_cons_self ..)
      have hne : (c :: rest').head? ≠ some .root := by
        rintro ⟨⟩
        exact hc
      rw [List.nil_append, ofComponents_of_head_ne_root hne]
      have hsegs := segments_intercalate (by simp) htexts
      have habs : (("/".intercalate ((c :: rest').map Component.text)).toList.head? ==
          some '/') = false := by
        rw [List.map_cons, head?_toList_intercalate _ (text_ne_empty hc)]
        simpa using head?_text hc
      simp only [components, habs, hsegs, hnamed]
      simp [text_ne_dot hc]
  · -- a root first, then an empty segment before the rest
    rw [List.singleton_append, ofComponents_root]
    cases rest with
    | nil => rw [List.map_nil, String.intercalate_nil, String.append_empty, components_slash]
    | cons c rest' =>
      have hsegs := segments_intercalate (by simp) htexts
      have habs : (("/" ++ "/".intercalate ((c :: rest').map Component.text)).toList.head? ==
          some '/') = true := by
        simp [String.toList_append]
      simp only [components, habs, segments_slash_append, hsegs]
      simpa using hnamed
  · -- `.` first, then the rest
    have hne : (Component.current :: rest).head? ≠ some .root := by
      rintro ⟨⟩
    rw [List.singleton_append, ofComponents_of_head_ne_root hne, List.map_cons]
    have hsegs : segments ("/".intercalate (Component.text .current :: rest.map Component.text)) =
        "." :: rest.map Component.text := by
      refine segments_intercalate (by simp) fun x hx => ?_
      rcases List.mem_cons.mp hx with rfl | hx
      · decide
      · exact htexts x hx
    have habs : (("/".intercalate (Component.text .current :: rest.map Component.text)).toList.head?
        == some '/') = false := by
      rw [head?_toList_intercalate _ (by decide)]
      rfl
    simp only [components, habs, hsegs]
    simp [hnamed]

/-- The parent of a path has the path's components less the last. -/
theorem components_parent? {p q : String} (h : parent? p = some q) :
    components q = (components p).dropLast := by
  unfold parent? at h
  split at h
  · cases h
  · cases h
  · rename_i c rest _ hrev
    cases h
    have hK : (components p).dropLast = rest.reverse := by
      rw [← List.reverse_reverse (components p), hrev]
      simp
    rw [← hK]
    exact components_ofComponents (canonical_components p).dropLast

/-- A path with a parent is its parent's components and one more, which is not the root. -/
theorem components_eq_parent?_append {p q : String} (h : parent? p = some q) :
    ∃ c, c ≠ .root ∧ components p = components q ++ [c] := by
  have hq := components_parent? h
  unfold parent? at h
  split at h
  · cases h
  · cases h
  · rename_i c rest hnot hrev
    have hK : components p = rest.reverse ++ [c] := by
      rw [← List.reverse_reverse (components p), hrev]
      simp
    refine ⟨c, fun hc => ?_, by rw [hq, hK]; simp⟩
    subst hc
    have hrest : rest ≠ [] := fun hr => hnot rfl hr
    obtain ⟨head, r, hhr, hhead, hr⟩ := canonical_components p
    -- the root only comes first, and this path has more than one component
    cases r with
    | nil =>
      have hlen := congrArg List.length (hK.symm.trans hhr)
      have hpos : 0 < rest.length := List.length_pos_iff.mpr hrest
      rcases hhead with rfl | rfl | rfl <;>
        simp only [List.length_append, List.length_reverse, List.length_singleton,
          List.length_nil, List.append_nil] at hlen <;> omega
    | cons x xs =>
      have hmem : Component.root ∈ x :: xs := by
        have hl := congrArg List.getLast? (hK.symm.trans hhr)
        rw [List.getLast?_concat, List.getLast?_append,
          List.getLast?_eq_some_getLast (List.cons_ne_nil x xs)] at hl
        simp only [Option.some_or, Option.some.injEq] at hl
        rw [hl]
        exact List.getLast_mem _
      exact hr _ hmem

/-- A path with a component below the root has a parent. -/
theorem parent?_isSome {p : String} (hne : components p ≠ []) (hroot : components p ≠ [.root]) :
    ∃ q, parent? p = some q := by
  unfold parent?
  split
  · rename_i hrev
    exact absurd (List.reverse_eq_nil_iff.mp hrev) hne
  · rename_i hrev
    exact absurd (by simpa using congrArg List.reverse hrev) hroot
  · exact ⟨_, rfl⟩

-- ============================================================================
-- Paths built from a base by names
-- ============================================================================

/-- Plain names joined one by one to a base add their components. -/
theorem components_foldl_join (base : String) {names : List String}
    (h : ∀ n ∈ names, IsPlainName n) :
    components (names.foldl join base) = components base ++ names.map .normal := by
  induction names generalizing base with
  | nil => simp
  | cons n names ih =>
    rw [List.foldl_cons, ih _ fun n hn => h n (List.mem_cons_of_mem _ hn),
      components_join_plain _ (h n (List.mem_cons_self ..))]
    simp

theorem named_normal {names : List String} (h : ∀ n ∈ names, IsPlainName n) :
    ∀ c ∈ names.map Component.normal, Named c := by
  intro c hc
  obtain ⟨n, hn, rfl⟩ := List.mem_map.mp hc
  exact h n hn

theorem texts_normal (names : List String) :
    (names.map Component.normal).map Component.text = names := by
  rw [List.map_map]
  conv_rhs => rw [← List.map_id names]
  rfl

/-- Plain names joined by slashes are a relative path with those names. -/
theorem components_intercalate {names : List String} (hne : names ≠ [])
    (h : ∀ n ∈ names, IsPlainName n) :
    components ("/".intercalate names) = names.map .normal := by
  have hhead : (names.map Component.normal).head? ≠ some .root := by
    obtain ⟨n, ns, rfl⟩ := List.exists_cons_of_ne_nil hne
    simp
  have hcan : Canonical (names.map Component.normal) :=
    ⟨[], _, rfl, .inl rfl, named_normal h⟩
  have hw := components_ofComponents hcan
  rwa [ofComponents_of_head_ne_root hhead, texts_normal] at hw

theorem isAbsolute_intercalate {names : List String} (hne : names ≠ [])
    (h : ∀ n ∈ names, IsPlainName n) : isAbsolute ("/".intercalate names) = false := by
  obtain ⟨n, ns, rfl⟩ := List.exists_cons_of_ne_nil hne
  have hn := h n (List.mem_cons_self ..)
  have hc : Named (.normal n) := hn
  rw [isAbsolute, head?_toList_intercalate _ hn.2.1]
  simpa [Component.text] using head?_text hc

theorem components_append_slash_intercalate (p : String) {names : List String} (hne : names ≠ [])
    (h : ∀ n ∈ names, IsPlainName n) :
    components (p ++ "/" ++ "/".intercalate names) = components (p ++ "/") ++ names.map .normal := by
  have hslash : ∀ x ∈ names, '/' ∉ x.toList := fun x hx => (h x hx).1
  have hhead : (p ++ "/" ++ "/".intercalate names).toList.head? = (p ++ "/").toList.head? := by
    simp [String.toList_append, List.head?_append]
  have hsegs : (segments p ++ names).head? = (segments p ++ [""]).head? := by
    obtain ⟨x, xs, hx⟩ := List.exists_cons_of_ne_nil (segments_ne_nil p)
    rw [hx]
    rfl
  have hnamed := filterMap_texts (named_normal h)
  rw [texts_normal] at hnamed
  simp only [components, hhead, segments_append_slash_append, segments_intercalate hne hslash,
    segments_slash, hsegs, List.filterMap_append, hnamed]
  simp

/-- Plain names joined by slashes and taken from a base add their components. -/
theorem components_join_intercalate (base : String) {names : List String} (hne : names ≠ [])
    (h : ∀ n ∈ names, IsPlainName n) :
    components (join base ("/".intercalate names)) = components base ++ names.map .normal := by
  unfold join
  rw [isAbsolute_intercalate hne h, if_neg Bool.false_ne_true]
  split
  · rename_i hend
    rcases Bool.or_eq_true_iff.mp hend with hempty | hslash
    · rw [String.isEmpty_iff.mp hempty, String.empty_append, components_intercalate hne h]
      rfl
    · -- the base ends in a slash: it is a text and a slash
      obtain ⟨q, hq⟩ := List.getLast?_eq_some_iff.mp (beq_iff_eq.mp hslash)
      have hbase : base = String.ofList q ++ "/" :=
        String.ext (by simp [hq, String.toList_append])
      rw [hbase, components_append_slash_intercalate _ hne h]
  · rename_i hend
    have hbase : base ≠ "" := fun hb => hend (by simp [hb])
    rw [components_append_slash_intercalate _ hne h, components_slash_end hbase]

/-- A text that ends in a plain name does not ask for a directory: it ends neither in a
slash nor in `/.` or `/..`. -/
theorem asksForDirectory_eq_false {s n : String} (hn : IsPlainName n)
    (h : n.toList <:+ s.toList) : FileTree.asksForDirectory s = false := by
  obtain ⟨hslash, hne, hdot, hdots⟩ := hn
  obtain ⟨pre, hs⟩ := h
  have hrev : s.toList.reverse = n.toList.reverse ++ pre.reverse := by
    rw [← hs, List.reverse_append]
  have hmem : ∀ x ∈ n.toList.reverse, x ≠ '/' := fun x hx hx' =>
    hslash (hx' ▸ List.mem_reverse.mp hx)
  have htext : ∀ cs : List Char, n.toList.reverse = cs.reverse → n = String.ofList cs := by
    intro cs hcs
    exact String.ext (by rw [String.toList_ofList, ← List.reverse_reverse n.toList, hcs,
      List.reverse_reverse])
  have hsuf : ∀ l : List Char, ¬ l.reverse <+: s.toList.reverse → l.isSuffixOf s.toList = false :=
    fun l hl => Bool.eq_false_iff.mpr fun h =>
      hl (List.reverse_prefix.mpr (List.isSuffixOf_iff_suffix.mp h))
  -- the last characters of `s` are those of `n`, read from the end
  have key : s.toList.reverse.head? ≠ some '/' ∧ ¬ ['/', '.'].reverse <+: s.toList.reverse ∧
      ¬ ['/', '.', '.'].reverse <+: s.toList.reverse := by
    rw [hrev]
    rcases hr : n.toList.reverse with _ | ⟨a, _ | ⟨b, _ | ⟨c, rest⟩⟩⟩
    · exact absurd (htext [] (by simpa using hr)) hne
    · have ha : a ≠ '.' := by
        rintro rfl
        exact hdot (htext ['.'] (by simpa using hr))
      have ha' : a ≠ '/' := hmem a (by simp [hr])
      simp [Ne.symm ha, ha']
    · have hb : b ≠ '/' := hmem b (by simp [hr])
      have ha' : a ≠ '/' := hmem a (by simp [hr])
      have hab : '.' = a → '.' = b → False := by
        rintro rfl rfl
        exact hdots (htext ['.', '.'] (by simpa using hr))
      simp only [List.reverse_cons, List.reverse_nil, List.nil_append, List.cons_append,
        List.cons_prefix_cons, not_and, Ne.symm hb]
      exact ⟨by simpa using ha', fun _ h => h.elim, fun h1 h2 => (hab h1 h2).elim⟩
    · have hb : b ≠ '/' := hmem b (by simp [hr])
      have hc : c ≠ '/' := hmem c (by simp [hr])
      have ha' : a ≠ '/' := hmem a (by simp [hr])
      simp [Ne.symm hb, Ne.symm hc, ha']
  obtain ⟨h1, h2, h3⟩ := key
  rw [List.head?_reverse] at h1
  simp [FileTree.asksForDirectory, h1, hsuf _ h2, hsuf _ h3]

theorem foldl_enter_normal (here : List String) (names : List String) :
    (names.map Component.normal).foldl Component.enter here = here ++ names := by
  induction names generalizing here with
  | nil => simp
  | cons n names ih =>
    rw [List.map_cons, List.foldl_cons, ih]
    simp [Component.enter]

theorem denote_foldl_join (cwd : List String) (base : String) {names : List String}
    (h : ∀ n ∈ names, IsPlainName n) :
    denote cwd (names.foldl join base) = denote cwd base ++ names := by
  rw [denote, components_foldl_join base h, List.foldl_append, foldl_enter_normal]
  rfl

theorem denote_join_intercalate (cwd : List String) (base : String) {names : List String}
    (hne : names ≠ []) (h : ∀ n ∈ names, IsPlainName n) :
    denote cwd (join base ("/".intercalate names)) = denote cwd base ++ names := by
  rw [denote, components_join_intercalate base hne h, List.foldl_append, foldl_enter_normal]
  rfl

/-- A relative path taken from a base ends the text of the join. -/
theorem suffix_join (base : String) {rel : String} (h : isAbsolute rel = false) :
    rel.toList <:+ (join base rel).toList := by
  unfold join
  rw [h, if_neg Bool.false_ne_true]
  split <;>
  · simp only [String.toList_append]
    exact List.suffix_append _ _

theorem suffix_intercalate_concat (names : List String) (n : String) :
    n.toList <:+ ("/".intercalate (names ++ [n])).toList := by
  induction names with
  | nil => simp
  | cons x names ih =>
    obtain ⟨y, ys, hys⟩ := List.exists_cons_of_ne_nil (List.append_ne_nil_of_right_ne_nil names
      (List.cons_ne_nil n []))
    rw [List.cons_append, hys, String.intercalate_cons_cons, ← hys]
    simp only [String.toList_append]
    exact ih.trans (List.suffix_append _ _)

-- ============================================================================
-- The order of paths below one base
-- ============================================================================

theorem lt_go_append (D xs ys : List Component) : lt.go (D ++ xs) (D ++ ys) = lt.go xs ys := by
  induction D with
  | nil => rfl
  | cons c D ih => simp [lt.go, ih]

/-- Names in increasing order give components in path order. -/
theorem lt_go_map_normal {a b : List String} (h : List.Lex (· < ·) a b) :
    lt.go (a.map .normal) (b.map .normal) = true := by
  induction h with
  | nil => rfl
  | cons _ ih => simpa [lt.go] using ih
  | rel hlt => simp [lt.go, Component.lt, String.ne_of_lt hlt, hlt]

/-- Two paths made of plain names below one base are ordered as the names. -/
theorem lt_join_intercalate (base : String) {a b : List String} (ha : a ≠ []) (hb : b ≠ [])
    (hpa : ∀ n ∈ a, IsPlainName n) (hpb : ∀ n ∈ b, IsPlainName n) (h : List.Lex (· < ·) a b) :
    lt (join base ("/".intercalate a)) (join base ("/".intercalate b)) = true := by
  unfold lt
  rw [components_join_intercalate base ha hpa, components_join_intercalate base hb hpb,
    lt_go_append]
  exact lt_go_map_normal h

end Path

end BuildRecipe
