import BuildRecipe.Proofs.Act.Frame
import BuildRecipe.Proofs.FileTree.Resolve
import Mathlib.Data.List.Nodup
/-!
# The walk in name order

A walk that sorts each directory's names visits a fixed tree in one order: a name, then, for
a directory, everything below it (`FileTree.sortedWalk`). Everything below the walked
location is visited (`mem_sortedWalk_iff`), each entry once and in increasing order of the
names below the walked location (`sortedWalk_pairwise`), and a walk deep enough for the tree
lists the same entries with more depth to spare (`sortedWalk_fuel_eq`).

The walk on a machine (`Act.walkSortedFrom`) reads a directory's names when it enters it, so
what it visits depends on what the visits before did to the tree. When no visit changes the
entries at and below the walked location (`Act.KeepsBelow`), the walk runs as the visits of
the fixed tree's listing, one after another (`walkSortedFrom_agree`, `walkSorted_run`).
-/

namespace BuildRecipe

-- ============================================================================
-- Sorting names
-- ============================================================================

theorem insertBy_perm {α : Type} (le : α → α → Bool) (x : α) (l : List α) :
    (insertBy le x l).Perm (x :: l) := by
  induction l with
  | nil => exact List.Perm.refl _
  | cons y ys ih =>
    unfold insertBy
    split
    · exact List.Perm.refl _
    · exact (ih.cons y).trans (List.Perm.swap x y ys)

theorem sortBy_perm {α : Type} (le : α → α → Bool) (l : List α) : (sortBy le l).Perm l := by
  induction l with
  | nil => exact List.Perm.refl _
  | cons x xs ih => exact (insertBy_perm le x _).trans (ih.cons x)

theorem insertBy_pairwise_le (x : String) {l : List String} (hl : l.Pairwise (· ≤ ·)) :
    (insertBy (fun a b => decide (a ≤ b)) x l).Pairwise (· ≤ ·) := by
  induction l with
  | nil => simp [insertBy]
  | cons y ys ih =>
    obtain ⟨hy, hys⟩ := List.pairwise_cons.mp hl
    unfold insertBy
    by_cases hxy : x ≤ y
    · rw [if_pos (decide_eq_true hxy)]
      refine List.pairwise_cons.mpr ⟨fun z hz => ?_, hl⟩
      rcases List.mem_cons.mp hz with rfl | hz
      · exact hxy
      · exact String.le_trans hxy (hy z hz)
    · rw [if_neg (by simpa using hxy)]
      have hyx : y ≤ x := (String.le_total x y).resolve_left hxy
      refine List.pairwise_cons.mpr ⟨fun z hz => ?_, ih hys⟩
      rcases List.mem_cons.mp ((insertBy_perm _ x ys).mem_iff.mp hz) with rfl | hz
      · exact hyx
      · exact hy z hz

theorem mem_sortNames {n : String} {ns : List String} : n ∈ sortNames ns ↔ n ∈ ns :=
  (sortBy_perm _ ns).mem_iff

/-- Distinct names come out in strictly increasing order. -/
theorem sortNames_pairwise_lt {ns : List String} (h : ns.Nodup) :
    (sortNames ns).Pairwise (· < ·) := by
  have hle : (sortNames ns).Pairwise (· ≤ ·) := by
    unfold sortNames sortBy
    induction ns with
    | nil => exact List.Pairwise.nil
    | cons x xs ih => exact insertBy_pairwise_le x (ih (List.nodup_cons.mp h).2)
  have hnd : (sortNames ns).Nodup := (sortBy_perm _ ns).nodup_iff.mpr h
  refine (hle.and hnd).imp fun {a b} hab => ?_
  by_contra hlt
  exact hab.2 (String.le_antisymm hab.1 (String.not_lt.mp hlt))

namespace FileTree

variable {t t' : FileTree}

-- ============================================================================
-- The entries at and below a location
-- ============================================================================

/-- The entries at and below a location, in the order they were made. -/
def subtree (t : FileTree) (l : Location) : List (Location × Node) :=
  t.entries.filter fun e => l.isPrefixOf e.1

theorem filterMap_filter_of {α β : Type} (f : α → Option β) (p : α → Bool)
    (h : ∀ a b, f a = some b → p a = true) (l : List α) :
    (l.filter p).filterMap f = l.filterMap f := by
  induction l with
  | nil => rfl
  | cons a l ih =>
    by_cases hp : p a = true
    · rw [List.filter_cons_of_pos hp, List.filterMap_cons, List.filterMap_cons, ih]
    · rw [List.filter_cons_of_neg hp, ih, List.filterMap_cons]
      cases hf : f a with
      | none => rfl
      | some b => exact absurd (h a b hf) hp

theorem find?_filter_of {α : Type} (p q : α → Bool) (h : ∀ a, q a = true → p a = true)
    (l : List α) : (l.filter p).find? q = l.find? q := by
  induction l with
  | nil => rfl
  | cons a l ih =>
    by_cases hp : p a = true
    · rw [List.filter_cons_of_pos hp, List.find?_cons, List.find?_cons, ih]
    · rw [List.filter_cons_of_neg hp, ih, List.find?_cons]
      have hq : q a = false := by
        cases hqa : q a with
        | false => rfl
        | true => exact absurd (h a hqa) hp
      rw [hq]

/-- The name a location gives below `l`, as `children` reads it: its last name when the rest
is `l`. -/
theorem eq_append_of_childName {l y : Location} {n : String}
    (h : (match y.reverse with
      | n :: rest => if rest.reverse == l then some n else none
      | [] => none) = some n) : y = l ++ [n] := by
  split at h
  · rename_i n' rest hrev
    split at h
    · rename_i hl
      cases h
      rw [← List.reverse_reverse y, hrev, ← beq_iff_eq.mp hl]
      simp
    · cases h
  · cases h

/-- The names below a location are read off the entries at and below it. -/
theorem children_eq_of_subtree {l : Location} (h : t.subtree l = t'.subtree l) :
    t.children l = t'.children l := by
  have hsub : ∀ u : FileTree, u.children l = (u.subtree l).filterMap fun e =>
      match e.1.reverse with
      | n :: rest => if rest.reverse == l then some n else none
      | [] => none := by
    intro u
    unfold children subtree
    refine (filterMap_filter_of _ _ (fun e n he => ?_) _).symm
    rw [eq_append_of_childName he]
    exact List.isPrefixOf_iff_prefix.mpr (List.prefix_append l [n])
  rw [hsub t, hsub t', h]

/-- What lies at or below a location is read off the entries at and below it. -/
theorem get?_eq_of_subtree {l x : Location} (h : t.subtree l = t'.subtree l) (hx : l <+: x) :
    t.get? x = t'.get? x := by
  have hsub : ∀ u : FileTree, u.get? x =
      if x = [] then some .directory else ((u.subtree l).find? (·.1 == x)).map (·.2) := by
    intro u
    unfold get? subtree
    rw [find?_filter_of _ _ fun e he => ?_]
    rw [beq_iff_eq.mp he]
    exact List.isPrefixOf_iff_prefix.mpr hx
  rw [hsub t, hsub t', h]

theorem subtree_mono {l l' : Location} (h : t.subtree l = t'.subtree l) (hl : l <+: l') :
    t.subtree l' = t'.subtree l' := by
  have hsub : ∀ u : FileTree, u.subtree l' = (u.subtree l).filter fun e => l'.isPrefixOf e.1 := by
    intro u
    unfold subtree
    rw [List.filter_filter]
    congr 1
    funext e
    by_cases he : l'.isPrefixOf e.1 = true
    · have hle : l.isPrefixOf e.1 = true :=
        List.isPrefixOf_iff_prefix.mpr (hl.trans (List.isPrefixOf_iff_prefix.mp he))
      simp [he, hle]
    · simp [he]
  rw [hsub t, hsub t', h]

/-- Setting a location outside the subtree leaves it as it was. -/
theorem subtree_set {l x : Location} (hx : ¬ l <+: x) (n : Node) :
    (t.set x n).subtree l = t.subtree l := by
  have hxl : l.isPrefixOf x = false := by
    cases h : l.isPrefixOf x with
    | false => rfl
    | true => exact absurd (List.isPrefixOf_iff_prefix.mp h) hx
  unfold set subtree
  split
  · -- replacing the entry at `x` touches no entry below `l`
    have hpred : ((fun e : Location × Node => l.isPrefixOf e.1) ∘
        fun e => if (e.1 == x) = true then (x, n) else e) = fun e => l.isPrefixOf e.1 := by
      funext e
      by_cases he : e.1 = x
      · simp [he, hxl]
      · simp [he]
    rw [List.filter_map, hpred]
    conv_rhs => rw [← List.map_id (List.filter _ t.entries)]
    apply List.map_congr_left
    intro e he
    have hpre := (List.mem_filter.mp he).2
    have hne : e.1 ≠ x := fun h => by rw [h, hxl] at hpre; cases hpre
    simp [hne]
  · rw [List.filter_append]
    simp [hxl]

theorem mem_children_of_get? {l : Location} {n : String} {node : Node}
    (h : t.get? (l ++ [n]) = some node) : n ∈ t.children l := by
  have hmem := mem_of_get? h (by simp)
  unfold children
  refine List.mem_filterMap.mpr ⟨_, hmem, ?_⟩
  simp

theorem get?_of_mem_children {l : Location} {n : String} (h : n ∈ t.children l) :
    ∃ node, t.get? (l ++ [n]) = some node := by
  unfold children at h
  obtain ⟨e, he, hn⟩ := List.mem_filterMap.mp h
  rw [← eq_append_of_childName hn]
  exact Option.ne_none_iff_exists'.mp (get?_ne_none_of_mem he)

/-- With one entry per location, a directory's names are distinct. -/
theorem children_nodup (hnd : (t.entries.map (·.1)).Nodup) (l : Location) :
    (t.children l).Nodup := by
  have hmap : t.children l = (t.entries.map (·.1)).filterMap fun x =>
      match x.reverse with
      | n :: rest => if rest.reverse == l then some n else none
      | [] => none := by
    rw [List.filterMap_map]
    rfl
  rw [hmap]
  -- a name below `l` comes from one location only
  exact hnd.filterMap fun x x' n hx hx' => by
    rw [eq_append_of_childName hx, eq_append_of_childName hx']

-- ============================================================================
-- The listing of a walk in name order
-- ============================================================================

/-- The entries a walk that sorts each directory's names visits in a fixed tree, at most
`fuel` levels deep: the names of the directory in increasing order, each followed, when it is a
directory, by everything below it. -/
def sortedWalk (t : FileTree) : Nat → String → List String → Location → List WalkEntry
  | 0, _, _, _ => []
  | fuel + 1, path, below, l =>
    (sortNames (t.children l)).flatMap fun n =>
      ⟨Path.join path n, below ++ [n], ((t.get? (l ++ [n])).map Node.isDirectory).getD false⟩ ::
        if ((t.get? (l ++ [n])).map Node.isDirectory).getD false then
          t.sortedWalk fuel (Path.join path n) (below ++ [n]) (l ++ [n])
        else []

/-- The listing reads only the entries at and below the walked location. -/
theorem sortedWalk_congr {l : Location} (h : t.subtree l = t'.subtree l) (fuel : Nat)
    (path : String) (below : List String) :
    t.sortedWalk fuel path below l = t'.sortedWalk fuel path below l := by
  induction fuel generalizing path below l with
  | zero => rfl
  | succ fuel ih =>
    unfold sortedWalk
    rw [children_eq_of_subtree h]
    congr 1
    funext n
    have hn : l <+: l ++ [n] := List.prefix_append l [n]
    rw [get?_eq_of_subtree h hn, ih (subtree_mono h hn)]

/-- Every entry below a directory of a well-formed tree is listed, as the path and the names
that lead to it and whether it is a directory, and nothing else is. -/
theorem mem_sortedWalk_iff (hwf : t.WellFormed) {fuel : Nat} {path : String}
    {below : List String} {l : Location} (hl : t.get? l = some .directory) {e : WalkEntry} :
    e ∈ t.sortedWalk fuel path below l ↔
      ∃ s n, s ≠ [] ∧ s.length ≤ fuel ∧ t.get? (l ++ s) = some n ∧
        e = ⟨s.foldl Path.join path, below ++ s, n.isDirectory⟩ := by
  induction fuel generalizing path below l with
  | zero =>
    simp only [sortedWalk, List.not_mem_nil, false_iff, not_exists, not_and]
    intro s n hs hlen
    exact absurd (List.eq_nil_of_length_eq_zero (Nat.le_zero.mp hlen)) hs
  | succ fuel ih =>
    unfold sortedWalk
    rw [List.mem_flatMap]
    constructor
    · rintro ⟨m, hm, he⟩
      obtain ⟨node, hnode⟩ := get?_of_mem_children (mem_sortNames.mp hm)
      rw [hnode] at he
      rcases List.mem_cons.mp he with rfl | he
      · exact ⟨[m], node, by simp, by simp, hnode, rfl⟩
      · -- below a directory name, by the walk one level down
        cases node with
        | directory =>
          obtain ⟨s, n, hs, hlen, hget, rfl⟩ := (ih hnode).mp (by simpa [Node.isDirectory] using he)
          refine ⟨m :: s, n, by simp, by simp; omega, by simpa using hget, ?_⟩
          simp
        | file c mode => simp [Node.isDirectory] at he
        | executable u => simp [Node.isDirectory] at he
    · rintro ⟨s, n, hs, hlen, hget, rfl⟩
      obtain ⟨m, s', rfl⟩ := List.exists_cons_of_ne_nil hs
      -- the first name below `l` is there: it is where the entry is, or a directory above it
      have hfirst : ∃ node, t.get? (l ++ [m]) = some node ∧ (s' ≠ [] → node = .directory) := by
        by_cases hs' : s' = []
        · subst hs'
          exact ⟨n, by simpa using hget, fun h => absurd rfl h⟩
        · have hpre : l ++ [m] <+: l ++ m :: s' := by simp
          exact ⟨_, hwf.get?_of_isPrefix hget hpre (by simpa using hs'), fun _ => rfl⟩
      obtain ⟨node, hnode, hdir⟩ := hfirst
      refine ⟨m, mem_sortNames.mpr (mem_children_of_get? hnode), ?_⟩
      rw [hnode]
      by_cases hs' : s' = []
      · subst hs'
        have hn : node = n := by simpa [hnode] using hget
        subst hn
        exact List.mem_cons_self ..
      · have hd := hdir hs'
        subst hd
        refine List.mem_cons_of_mem _ ?_
        simp only [Node.isDirectory, Option.map_some, Option.getD_some, if_true]
        refine (ih hnode).mpr ⟨s', n, hs', by simp at hlen; omega, by simpa using hget, ?_⟩
        simp

/-- Every entry listed below a name carries the names that lead to it after that name. -/
theorem below_of_mem_sortedWalk {fuel : Nat} {path : String} {below : List String}
    {l : Location} {e : WalkEntry} (h : e ∈ t.sortedWalk fuel path below l) :
    ∃ n s, e.below = below ++ n :: s := by
  induction fuel generalizing path below l with
  | zero => simp [sortedWalk] at h
  | succ fuel ih =>
    unfold sortedWalk at h
    obtain ⟨n, -, he⟩ := List.mem_flatMap.mp h
    rcases List.mem_cons.mp he with rfl | he
    · exact ⟨n, [], rfl⟩
    · split at he
      · obtain ⟨n', s, hs⟩ := ih he
        exact ⟨n, n' :: s, by simp [hs]⟩
      · simp at he

/-- A list comes before any longer list it starts. -/
theorem lex_append_cons {α : Type} {r : α → α → Prop} (p : List α) (x : α) (xs : List α) :
    List.Lex r p (p ++ x :: xs) := by
  induction p with
  | nil => exact .nil
  | cons a p ih => exact .cons ih

theorem lex_append_left {α : Type} {r : α → α → Prop} (p : List α) {a b : List α}
    (h : List.Lex r a b) : List.Lex r (p ++ a) (p ++ b) := by
  induction p with
  | nil => exact h
  | cons c p ih => exact .cons ih

/-- With one entry per location, the listing goes in increasing order of the names that lead
to each entry: a directory comes before what is below it, and what is below a name before the
next name. -/
theorem sortedWalk_pairwise (hnd : (t.entries.map (·.1)).Nodup) (fuel : Nat) (path : String)
    (below : List String) (l : Location) :
    (t.sortedWalk fuel path below l).Pairwise fun a b => List.Lex (· < ·) a.below b.below := by
  induction fuel generalizing path below l with
  | zero => exact .nil
  | succ fuel ih =>
    unfold sortedWalk
    rw [List.pairwise_flatMap]
    -- what is listed for one name starts with that name
    have hitem : ∀ n, ∀ e ∈ (⟨Path.join path n, below ++ [n],
        ((t.get? (l ++ [n])).map Node.isDirectory).getD false⟩ :: if
          ((t.get? (l ++ [n])).map Node.isDirectory).getD false then
          t.sortedWalk fuel (Path.join path n) (below ++ [n]) (l ++ [n]) else [] : List WalkEntry),
        ∃ s, e.below = below ++ n :: s := by
      intro n e he
      rcases List.mem_cons.mp he with rfl | he
      · exact ⟨[], rfl⟩
      · split at he
        · obtain ⟨n', s, hs⟩ := below_of_mem_sortedWalk he
          exact ⟨n' :: s, by simp [hs]⟩
        · simp at he
    constructor
    · intro n _
      refine List.pairwise_cons.mpr ⟨fun e he => ?_, ?_⟩
      · split at he
        · obtain ⟨n', s, hs⟩ := below_of_mem_sortedWalk he
          rw [hs]
          exact lex_append_cons (below ++ [n]) n' s
        · simp at he
      · split
        · exact ih _ _ _
        · exact .nil
    · refine (sortNames_pairwise_lt (children_nodup hnd l)).imp fun {n₁ n₂} hlt => ?_
      intro a ha b hb
      obtain ⟨s₁, h₁⟩ := hitem n₁ a ha
      obtain ⟨s₂, h₂⟩ := hitem n₂ b hb
      rw [h₁, h₂]
      exact lex_append_left below (.rel hlt)

/-- Fuel beyond the depth of the tree below the walked location changes nothing. -/
theorem sortedWalk_fuel_eq {fuel : Nat} {l : Location}
    (hdepth : ∀ s n, t.get? (l ++ s) = some n → s.length ≤ fuel) {fuel' : Nat}
    (hle : fuel ≤ fuel') (path : String) (below : List String) :
    t.sortedWalk fuel' path below l = t.sortedWalk fuel path below l := by
  induction fuel generalizing fuel' path below l with
  | zero =>
    -- nothing lies below the location
    have hnone : t.children l = [] := by
      refine List.eq_nil_iff_forall_not_mem.mpr fun n hn => ?_
      obtain ⟨node, hnode⟩ := get?_of_mem_children hn
      simpa using hdepth [n] node hnode
    cases fuel' with
    | zero => rfl
    | succ fuel' => simp [sortedWalk, hnone, sortNames, sortBy]
  | succ fuel ih =>
    obtain ⟨fuel', rfl⟩ : ∃ k, fuel' = k + 1 := ⟨fuel' - 1, by omega⟩
    unfold sortedWalk
    congr 1
    funext n
    have hdepth' : ∀ s node, t.get? (l ++ [n] ++ s) = some node → s.length ≤ fuel := by
      intro s node hs
      have := hdepth (n :: s) node (by simpa using hs)
      simp at this
      omega
    rw [ih hdepth' (by omega)]

/-- The entries at and below a location. -/
theorem mem_subtree {l : Location} {e : Location × Node} :
    e ∈ t.subtree l ↔ e ∈ t.entries ∧ l <+: e.1 := by
  simp [subtree, List.isPrefixOf_iff_prefix]

/-- In a well-formed tree, how deep an entry lies below a location is bounded by the number of
entries there: each of the locations on the way is an entry of its own. -/
theorem length_le_subtree (hwf : t.WellFormed) {l s : Location} {n : Node}
    (h : t.get? (l ++ s) = some n) : s.length ≤ (t.subtree l).length := by
  let chain := (List.range s.length).map fun i => l ++ s.take (i + 1)
  have hchain : chain.Nodup := by
    refine (List.nodup_range).map_on fun i hi j hj hij => ?_
    have hlen := congrArg List.length hij
    simp only [List.mem_range] at hi hj
    simp only [List.length_append, List.length_take] at hlen
    omega
  have hsub : chain ⊆ (t.subtree l).map (·.1) := by
    intro x hx
    obtain ⟨i, hi, rfl⟩ := List.mem_map.mp hx
    simp only [List.mem_range] at hi
    -- the location is on the way to the entry, so it is one
    have hpre : l ++ s.take (i + 1) <+: l ++ s :=
      (List.prefix_append_right_inj l).mpr (List.take_prefix _ _)
    have hget : ∃ node, t.get? (l ++ s.take (i + 1)) = some node := by
      by_cases hx : l ++ s.take (i + 1) = l ++ s
      · exact ⟨n, hx ▸ h⟩
      · exact ⟨_, hwf.get?_of_isPrefix h hpre hx⟩
    obtain ⟨node, hnode⟩ := hget
    have hne : l ++ s.take (i + 1) ≠ [] := by
      intro he
      have hlen := congrArg List.length he
      simp only [List.length_append, List.length_take, List.length_nil] at hlen
      omega
    refine List.mem_map.mpr ⟨_, mem_subtree.mpr ⟨mem_of_get? hnode hne, ?_⟩, rfl⟩
    exact List.prefix_append l _
  calc s.length = chain.length := by simp [chain]
    _ ≤ ((t.subtree l).map (·.1)).length := hchain.length_le_of_subset hsub
    _ = (t.subtree l).length := List.length_map _

theorem get?_of_directoryAt {cwd l : Location} {p : String} (h : t.directoryAt cwd p = .ok l) :
    t.get? l = some .directory := by
  unfold directoryAt at h
  cases hr : t.resolve cwd p with
  | error e => simp [hr, bind, Except.bind] at h
  | ok r =>
    simp only [hr, bind, Except.bind] at h
    split at h
    · cases h
    · rename_i hget
      cases h
      exact hget
    · cases h

end FileTree

namespace Act

variable {α γ β : Type}

-- ============================================================================
-- A walk over a tree its visits leave in place
-- ============================================================================

/-- Run `visit` on each entry in turn, answering what the visits answer, in order. -/
def visitAll (visit : WalkEntry → Act (List β)) : List WalkEntry → Act (List β)
  | [] => pure []
  | e :: es => do
    let x ← visit e
    let y ← visitAll visit es
    pure (x ++ y)

theorem visitAll_append (visit : WalkEntry → Act (List β)) (a b : List WalkEntry) :
    visitAll visit (a ++ b) = (do
      let x ← visitAll visit a
      let y ← visitAll visit b
      pure (x ++ y)) := by
  induction a with
  | nil => simp [visitAll]
  | cons e a ih => simp only [List.cons_append, visitAll, ih, bind_assoc, pure_bind, List.append_assoc]

/-- The action keeps the working directory `c` and leaves the entries at and below `l` as they
were, whether it succeeds or not. -/
def KeepsBelow (c l : Location) (a : Act α) : Prop :=
  ∀ m, m.cwd = c → (a.run m).2.cwd = c ∧ (a.run m).2.files.subtree l = m.files.subtree l

theorem KeepsBelow.mono {c l l' : Location} {a : Act α} (h : KeepsBelow c l a) (hl : l <+: l') :
    KeepsBelow c l' a :=
  fun m hm => ⟨(h m hm).1, FileTree.subtree_mono (h m hm).2 hl⟩

theorem KeepsBelow.keeps {c l : Location} {a : Act α} (h : KeepsBelow c l a)
    (S : List (Location × Node)) : Keeps (fun m => m.cwd = c ∧ m.files.subtree l = S) a :=
  fun m hm => ⟨(h m hm.1).1, (h m hm.1).2.trans hm.2⟩

theorem Keeps.visitAll {I : Machine → Prop} {visit : WalkEntry → Act (List β)}
    {es : List WalkEntry} (hv : ∀ e ∈ es, Keeps I (visit e)) : Keeps I (visitAll visit es) := by
  induction es with
  | nil => exact Keeps.pure _
  | cons e es ih =>
    refine Keeps.bind (hv e List.mem_cons_self) fun _ => Keeps.bind ?_ fun _ => Keeps.pure _
    exact ih fun e' he' => hv e' (List.mem_cons_of_mem _ he')

/-- Two actions that run alike from every machine with the property. -/
def Agree (I : Machine → Prop) (a b : Act α) : Prop := ∀ m, I m → a.run m = b.run m

namespace Agree

variable {I : Machine → Prop}

theorem refl (a : Act α) : Agree I a a := fun _ _ => rfl

theorem mono {J : Machine → Prop} {a b : Act α} (h : Agree J a b) (hIJ : ∀ m, I m → J m) :
    Agree I a b :=
  fun m hm => h m (hIJ m hm)

/-- Binds agree when their first parts do and the second of them keeps the property. -/
theorem bind {a b : Act α} {f g : α → Act γ} (hab : Agree I a b) (hb : Keeps I b)
    (hfg : ∀ x, Agree I (f x) (g x)) : Agree I (a >>= f) (b >>= g) := by
  intro m hm
  rw [run_bind, run_bind, hab m hm]
  have hm' := hb m hm
  rcases hr : b.run m with ⟨r, m'⟩
  rw [hr] at hm'
  cases r with
  | ok x => exact hfg x m' hm'
  | error e => rfl

end Agree

/-- The loop of a walk over a directory's names agrees with visiting, in turn, each name's
entry and, below a directory, the listing of the walk one level down. -/
theorem forIn_walk_agree {I : Machine → Prop} {visit : WalkEntry → Act (List β)}
    (entry : String → WalkEntry) (flag : String → Bool) (sub : String → Act (List β))
    (subList : String → List WalkEntry)
    (body : String × Bool → List β → Act (ForInStep (List β)))
    (hbody : ∀ n found, body (n, flag n) found = (do
      let v ← visit (entry n)
      if flag n then do
        let w ← sub n
        pure (.yield (found ++ v ++ w))
      else pure (.yield (found ++ v))))
    (ns : List String)
    (hv : ∀ e ∈ ns.flatMap fun n => entry n :: if flag n then subList n else [], Keeps I (visit e))
    (hsub : ∀ n ∈ ns, flag n = true → Agree I (sub n) (visitAll visit (subList n)))
    (found : List β) :
    Agree I (forIn (ns.map fun n => (n, flag n)) found body) (do
      let r ← visitAll visit (ns.flatMap fun n => entry n :: if flag n then subList n else [])
      pure (found ++ r)) := by
  induction ns generalizing found with
  | nil => intro m _; simp [visitAll]
  | cons n ns ih =>
    -- the visits of this name's entries, and those of the names after it
    have hhere : ∀ e ∈ entry n :: (if flag n then subList n else []), Keeps I (visit e) :=
      fun e he => hv e (List.mem_flatMap.mpr ⟨n, List.mem_cons_self, he⟩)
    have hlater : ∀ e ∈ ns.flatMap fun n => entry n :: if flag n then subList n else [],
        Keeps I (visit e) := fun e he => hv e (by rw [List.flatMap_cons]; exact List.mem_append_right _ he)
    have ih' := ih hlater fun n' hn' => hsub n' (List.mem_cons_of_mem _ hn')
    rw [List.map_cons, List.forIn_cons, hbody, List.flatMap_cons, visitAll_append]
    simp only [visitAll, bind_assoc, pure_bind]
    refine Agree.bind (Agree.refl _) (hhere _ List.mem_cons_self) fun v => ?_
    cases hf : flag n with
    | true =>
      simp only [if_true, bind_assoc, pure_bind]
      have hsubKeeps : ∀ e ∈ subList n, Keeps I (visit e) :=
        fun e he => hhere e (List.mem_cons_of_mem _ (by rw [hf]; exact he))
      refine Agree.bind (hsub n List.mem_cons_self hf) (Keeps.visitAll hsubKeeps) fun w => ?_
      simpa [List.append_assoc] using ih' (found ++ v ++ w)
    | false =>
      simpa [visitAll, List.append_assoc] using ih' (found ++ v)

/-- A walk whose visits of the listed entries keep the working directory and the entries below
the walked directory runs as the visits of the listing of the tree it started from. -/
theorem walkSortedFrom_agree {visit : WalkEntry → Act (List β)} (c : Location) (t : FileTree)
    (fuel : Nat) :
    ∀ {l : Location} (path : String) (below : List String),
      (∀ e ∈ t.sortedWalk fuel path below l, KeepsBelow c l (visit e)) →
      Agree (fun m => m.cwd = c ∧ m.files.subtree l = t.subtree l)
        (walkSortedFrom visit fuel path below l) (visitAll visit (t.sortedWalk fuel path below l)) := by
  induction fuel with
  | zero => intro l path below _; exact Agree.refl _
  | succ fuel ih =>
    intro l path below hv m hm
    unfold walkSortedFrom
    rw [run_bind, run_get]
    dsimp only
    -- the names and kinds the walk reads are those of the tree it started from
    have hget : ∀ n, m.files.get? (l ++ [n]) = t.get? (l ++ [n]) :=
      fun n => FileTree.get?_eq_of_subtree hm.2 (List.prefix_append l [n])
    simp only [FileTree.children_eq_of_subtree hm.2, hget, bind_pure]
    -- one name at a time, the walk one level down running as its listing
    refine (forIn_walk_agree
      (fun n => ⟨Path.join path n, below ++ [n], ((t.get? (l ++ [n])).map Node.isDirectory).getD false⟩)
      (fun n => ((t.get? (l ++ [n])).map Node.isDirectory).getD false)
      (fun n => walkSortedFrom visit fuel (Path.join path n) (below ++ [n]) (l ++ [n]))
      (fun n => t.sortedWalk fuel (Path.join path n) (below ++ [n]) (l ++ [n])) _ ?_ _
      (fun e he => (hv e he).keeps _) (fun n hn hf => ?_) [] m hm).trans ?_
    · intro n found
      rfl
    · have hn' : l <+: l ++ [n] := List.prefix_append l [n]
      -- what the walk one level down lists is listed here
      have hsubv : ∀ e ∈ t.sortedWalk fuel (Path.join path n) (below ++ [n]) (l ++ [n]),
          KeepsBelow c (l ++ [n]) (visit e) := by
        intro e he
        refine (hv e ?_).mono hn'
        unfold FileTree.sortedWalk
        refine List.mem_flatMap.mpr ⟨n, hn, List.mem_cons_of_mem _ ?_⟩
        rw [if_pos hf]
        exact he
      exact (ih _ _ hsubv).mono fun m' hm' => ⟨hm'.1, FileTree.subtree_mono hm'.2 hn'⟩
    · simp only [List.nil_append, bind_pure]
      rfl

/-- Walking a directory whose listed entries the visits leave in place, with the working
directory, runs as the visits of the machine's listing of it. -/
theorem walkSorted_run {visit : WalkEntry → Act (List β)} {p : String} {m : Machine}
    {l : Location} (hl : m.files.directoryAt m.cwd p = .ok l)
    (hv : ∀ e ∈ m.files.sortedWalk (2 * (m.files.entries.length + 1)) p [] l,
      KeepsBelow m.cwd l (visit e)) :
    (walkSorted visit p).run m =
      (visitAll visit (m.files.sortedWalk (2 * (m.files.entries.length + 1)) p [] l)).run m := by
  unfold walkSorted
  rw [run_bind, run_get]
  dsimp only
  rw [hl]
  exact walkSortedFrom_agree m.cwd m.files _ p [] hv m ⟨rfl, rfl⟩

end Act

end BuildRecipe
