import BuildRecipe.Proofs.Lifecycle.HeaderCopy
import BuildRecipe.Proofs.Lifecycle.Packaging
/-!
# Where the package stage writes

After the package folder is filled, the stage copies the headers, finds the artifacts and
writes the pkg-config file and the manifest. Every file and folder it makes there is put at
a location its paths denote from the working directory, and a tree whose locations are plain
names keeps them plain (`FileTree.Edits`): each change lies at a location the change allows
and held no directory before.

The pkg-config file `lib/pkgconfig/<name>.pc` and the manifest always lie strictly below the
folder: collecting succeeds only with an artifact, and an artifact's file name holds the
package name, so the name has no slash. The header copies lie below the folder when the
header destination is a relative path without `..`; no check of the recipe asks for that,
and with `../escape` the copies land beside the folder. The manifest records the artifacts
relative to the folder, always as plain names joined by slashes, and the headers so when the
destination is relative and without `..`.

Each change the stage makes is an edit that keeps a tree a file system can hold, so the stage
leaves a consistent tree consistent, failures included, when filling the folder does
(`package_keeps_consistent`).

Main statement: `package_writes_below_folder`. The destination `../escape` is
`header_copies_escape_folder`.
-/

namespace BuildRecipe

namespace Path

-- ============================================================================
-- Paths below a folder
-- ============================================================================

/-- The components a path's segments give after its start: `..` for `..`, and a name for
every segment that is neither empty nor `.`. -/
def namedComponents (s : String) : List Component :=
  (segments s).filterMap fun seg =>
    if seg = "" ∨ seg = "." then none
    else if seg = ".." then some Component.parent else some (Component.normal seg)

theorem namedComponents_suffix (s : String) : namedComponents s <:+ components s :=
  List.suffix_append _ _

theorem named_of_mem_namedComponents {s : String} {c : Component}
    (hc : c ∈ namedComponents s) : Named c := by
  obtain ⟨seg, hseg, hc⟩ := List.mem_filterMap.mp hc
  have hslash := slash_not_mem_of_mem_segments hseg
  split at hc
  · cases hc
  · rename_i hempty
    rw [not_or] at hempty
    split at hc
    · cases hc
      trivial
    · cases hc
      exact ⟨hslash, hempty.1, hempty.2, by assumption⟩

/-- After a slash, a path adds the components its segments name. -/
theorem components_append_slash (p s : String) :
    components (p ++ "/" ++ s) = components (p ++ "/") ++ namedComponents s := by
  have hhead : (p ++ "/" ++ s).toList.head? = (p ++ "/").toList.head? := by
    simp [String.toList_append, List.head?_append]
  have hsegs : (segments p ++ segments s).head? = (segments p ++ [""]).head? := by
    obtain ⟨x, xs, hx⟩ := List.exists_cons_of_ne_nil (segments_ne_nil p)
    rw [hx]
    rfl
  simp only [components, namedComponents, hhead, segments_append_slash_append, segments_slash,
    hsegs, List.filterMap_append]
  simp

/-- A relative path taken from a base that is not empty adds the components it names. -/
theorem components_join_relative {base rel : String} (hb : base ≠ "")
    (hr : isAbsolute rel = false) :
    components (join base rel) = components base ++ namedComponents rel := by
  unfold join
  rw [hr, if_neg Bool.false_ne_true]
  split
  · rename_i hend
    -- the base ends in a slash: it is a text and a slash
    have hslash : base.toList.getLast? = some '/' := by
      rcases Bool.or_eq_true_iff.mp hend with hempty | hslash
      · exact absurd (String.isEmpty_iff.mp hempty) hb
      · exact beq_iff_eq.mp hslash
    obtain ⟨q, hq⟩ := List.getLast?_eq_some_iff.mp hslash
    have hbase : base = String.ofList q ++ "/" := String.ext (by simp [hq, String.toList_append])
    rw [hbase, components_append_slash]
  · rw [components_append_slash, components_slash_end hb]

/-- Components that are plain names and `..`, without `..`, are the components of names. -/
theorem exists_map_normal {K : List Component} (h : ∀ c ∈ K, Named c) (hp : .parent ∉ K) :
    ∃ names : List String, (∀ n ∈ names, IsPlainName n) ∧ K = names.map .normal := by
  induction K with
  | nil => exact ⟨[], by simp, rfl⟩
  | cons c K ih =>
    rw [List.mem_cons, not_or] at hp
    obtain ⟨names, hnames, rfl⟩ := ih (fun c hc => h c (List.mem_cons_of_mem _ hc)) hp.2
    cases c with
    | normal n =>
      exact ⟨n :: names, List.forall_mem_cons.mpr ⟨h _ List.mem_cons_self, hnames⟩, rfl⟩
    | parent => exact absurd rfl hp.1
    | root | current => exact absurd (h _ List.mem_cons_self) id

/-- A relative path without `..`, taken from a base that is not empty, adds plain names to
the base's components. -/
theorem components_join_below {base rel : String} (hb : base ≠ "")
    (hr : isAbsolute rel = false) (hp : .parent ∉ components rel) :
    ∃ names : List String, (∀ n ∈ names, IsPlainName n) ∧
      components (join base rel) = components base ++ names.map .normal := by
  obtain ⟨names, hnames, hK⟩ := exists_map_normal (fun _ hc => named_of_mem_namedComponents hc)
    fun h => hp ((namedComponents_suffix rel).subset h)
  exact ⟨names, hnames, by rw [components_join_relative hb hr, hK]⟩

/-- A path that is a base followed by plain names reads, relative to the base, as the names
joined by slashes. -/
theorem relativeText_append_normal {base p : String} {names : List String}
    (h : components p = components base ++ names.map .normal) :
    relativeText base p = "/".intercalate names := by
  have hpre : (components base).isPrefixOf (components p) = true := by
    rw [h]
    exact List.isPrefixOf_iff_prefix.mpr (List.prefix_append _ _)
  unfold relativeText stripPrefix?
  dsimp only
  rw [if_pos hpre, Option.getD_some, h, List.drop_left, slashJoined, texts_normal]

/-- Plain names joined by slashes are a relative path without `..`. -/
theorem intercalate_relative {names : List String} (h : ∀ n ∈ names, IsPlainName n) :
    isAbsolute ("/".intercalate names) = false ∧ .parent ∉ components ("/".intercalate names) := by
  by_cases hne : names = []
  · subst hne
    decide +kernel
  · rw [isAbsolute_intercalate hne h, components_intercalate hne h]
    simp

/-- A name without a slash with `.pc` added is a plain name. -/
theorem isPlainName_append_pc {name : String} (h : '/' ∉ name.toList) :
    IsPlainName (name ++ ".pc") := by
  have hlen : 3 ≤ (name ++ ".pc").length := by
    rw [String.length_append, show ".pc".length = 3 by decide]
    omega
  refine ⟨by simp [String.toList_append, h], ?_, ?_, ?_⟩ <;> intro he <;> rw [he] at hlen
  all_goals exact absurd hlen (by decide)

/-- A component read off a path is a plain name when it is a name. -/
theorem isPlainName_of_fileName? {s n : String} (h : fileName? s = some n) : IsPlainName n := by
  unfold fileName? at h
  split at h
  · cases h
    exact isPlainName_of_normal_mem (List.mem_of_getLast? ‹_›)
  · cases h

end Path

/-- A library artifact's name holds the package name, so a package name with a slash has no
artifact without one. -/
theorem slash_not_mem_of_isLibraryArtifact {file name : String} {kind : LibraryKind} {os : Os}
    (hf : '/' ∉ file.toList) (h : isLibraryArtifact file name kind os = true) :
    '/' ∉ name.toList := by
  have hstem : ∀ x, name.toList <:+: ("lib" ++ name ++ x).toList := fun x => by
    simp only [String.toList_append]
    exact List.infix_append _ _ _
  have hname : ∀ x, name.toList <:+: (name ++ x).toList := fun x => by
    simp only [String.toList_append]
    exact (List.prefix_append _ _).isInfix
  have hpre : ∀ x, ("lib" ++ name ++ x).toList.isPrefixOf file.toList = true →
      name.toList <:+: file.toList := fun x hx =>
    (hstem x).trans (List.isPrefixOf_iff_prefix.mp hx).isInfix
  have hin : name.toList <:+: file.toList := by
    cases os <;> cases kind <;>
      simp only [isLibraryArtifact, Bool.or_eq_true, beq_iff_eq, Bool.and_eq_true] at h
    case linux.static | macos.static | freeBsd.static =>
      rw [h]
      exact hstem _
    case linux.shared | freeBsd.shared =>
      rcases h with h | h
      · rw [h]
        exact hstem _
      · exact hpre _ h
    case macos.shared => exact hpre _ h.1
    case windows.static | windows.shared =>
      rcases h with h | h
      · rw [h]
        exact hname _
      · rw [h]
        exact hstem _
  exact fun hs => hf (hin.subset hs)


namespace FileTree

variable {t t' t'' : FileTree}

-- ============================================================================
-- The edits of a tree
-- ============================================================================

/-- The names among a path's components, and plain names added after them, are plain. -/
theorem normal_plain_append (p : String) {names : List String}
    (h : ∀ n ∈ names, Path.IsPlainName n) :
    ∀ n, .normal n ∈ Path.components p ++ names.map .normal → Path.IsPlainName n := by
  intro n hn
  rcases List.mem_append.mp hn with hn | hn
  · exact Path.isPlainName_of_normal_mem hn
  · obtain ⟨a, ha, he⟩ := List.mem_map.mp hn
    cases he
    exact h n ha

/-- The changes from `t` to `t'` lie at locations with `S`, none of which held a directory. -/
def Edits (S : Location → Prop) (t t' : FileTree) : Prop :=
  ∀ y, t'.get? y ≠ t.get? y → S y ∧ t.get? y ≠ some .directory

namespace Edits

variable {S S' : Location → Prop}

theorem refl (S : Location → Prop) (t : FileTree) : Edits S t t := fun _ h => absurd rfl h

theorem trans (h₁ : Edits S t t') (h₂ : Edits S t' t'') : Edits S t t'' := by
  intro y hy
  by_cases h : t'.get? y = t.get? y
  · rw [← h] at hy ⊢
    exact h₂ y hy
  · exact h₁ y h

theorem mono (hS : ∀ y, S y → S' y) (h : Edits S t t') : Edits S' t t' :=
  fun y hy => (h y hy).imp_left (hS y)

/-- Edits keep every directory. -/
theorem get?_directory (h : Edits S t t') {x : Location} (hx : t.get? x = some .directory) :
    t'.get? x = some .directory := by
  by_contra hne
  exact (h x (by rw [hx]; exact hne)).2 hx

/-- Away from the edited locations the tree is as it was. -/
theorem get?_eq (h : Edits S t t') {y : Location} (hy : ¬ S y) : t'.get? y = t.get? y := by
  by_contra hne
  exact hy (h y hne).1

theorem plainNames (hS : ∀ y, S y → PlainLocation y) (h : Edits S t t') (ht : t.PlainNames) :
    t'.PlainNames := by
  intro x n hx
  by_cases hxe : t'.get? x = t.get? x
  · exact ht x n (hxe ▸ hx)
  · exact hS x (h x hxe).1

theorem set {x : Location} (hx : S x) (hd : t.get? x ≠ some .directory) (n : Node) :
    Edits S t (t.set x n) := by
  intro y hy
  by_cases hyx : y = x
  · subst hyx
    exact ⟨hx, hd⟩
  · exact absurd (get?_set_ne t n hyx) hy

end Edits

/-- Making a path's folders adds directories at stops of the path that held nothing. -/
theorem edits_createDirAll {cwd : Location} {p : String} (h : t.createDirAll cwd p = .ok t') :
    Edits (fun y => y ∈ stops cwd (Path.components p) ∧ t.get? y = none) t t' := by
  refine createDirAll_induction (Edits _ t) h (fun u x hx hnone hu => ?_) (Edits.refl _ _)
  -- the stop held nothing in `t` either: `u` differs from `t` only where `t` held nothing
  have hx0 : t.get? x = none := by
    by_cases hux : u.get? x = t.get? x
    · rw [← hux]
      exact hnone
    · exact (hu x hux).1.2
  exact hu.trans (Edits.set ⟨hx, hx0⟩ (by rw [hnone]; simp) _)

/-- A copy that succeeds sets the target's location, which held no directory. -/
theorem edits_copyFile {cwd : Location} {src dst : String} (h : t.copyFile cwd src dst = .ok t') :
    Edits (· = Path.denote cwd dst) t t' := by
  unfold copyFile at h
  cases hm : t.metadata cwd src with
  | error e => simp [hm, bind, Except.bind] at h
  | ok node =>
    cases hs : t.resolve cwd src with
    | error e =>
      simp only [hm, hs, bind, Except.bind] at h
      split at h <;> cases h
    | ok rs =>
      cases hr : t.resolve cwd dst with
      | error e =>
        simp only [hm, hs, hr, bind, Except.bind] at h
        split at h <;> cases h
      | ok r =>
        rw [← (resolve_location hr).2]
        simp only [hm, hs, hr, bind, Except.bind] at h
        split at h
        · cases h
        · split at h
          · cases h
          · -- the target held no directory, and a copy that succeeds sets it
            rename_i hnd
            split at h
            · cases h
            · split at h <;> cases h <;> exact Edits.set (S := (· = r.location)) rfl hnd _

/-- A write that succeeds sets the file's location, which held no directory. -/
theorem edits_writeFileWith {cwd : Location} {p : String} {c : Bytes} {mode : Nat}
    (h : t.writeFileWith cwd p c mode = .ok t') : Edits (· = Path.denote cwd p) t t' := by
  unfold writeFileWith at h
  cases hr : t.resolve cwd p with
  | error e => simp [hr, bind, Except.bind] at h
  | ok r =>
    rw [← (resolve_location hr).2]
    simp only [hr, bind, Except.bind] at h
    split at h
    · cases h
    · rename_i hnd
      split at h
      · cases h
      · cases h
        exact Edits.set (S := (· = r.location)) rfl hnd _

theorem edits_writeText {cwd : Location} {p text : String} (h : t.writeText cwd p text = .ok t') :
    Edits (· = Path.denote cwd p) t t' :=
  edits_writeFileWith h

-- ============================================================================
-- Where folders and files below a path may be made
-- ============================================================================

/-- A location strictly below `L` whose names are plain. -/
def Below (L y : Location) : Prop := PlainLocation y ∧ L <+: y ∧ y ≠ L

/-- Plain names taken from a location stop only at or below it. -/
theorem prefix_of_mem_stops_map_normal {here y : Location} {names : List String}
    (hy : y ∈ stops here (names.map .normal)) : here <+: y := by
  induction names generalizing here with
  | nil =>
    rw [List.map_nil, stops_nil, List.mem_singleton] at hy
    exact hy ▸ List.prefix_refl _
  | cons n names ih =>
    rw [List.map_cons, stops_cons_of_ne_root _ (by simp)] at hy
    rcases List.mem_cons.mp hy with rfl | hy
    · exact List.prefix_refl _
    · exact (List.prefix_append here [n]).trans (ih hy)

/-- What `S` takes in, for the folders and files made below where components `K` lead from
`cwd` by plain names: every location strictly below, and every stop on the way that holds
nothing in a tree edited from `t₀`. -/
structure Covers (S : Location → Prop) (cwd : Location) (t₀ : FileTree) (K : List Component) :
    Prop where
  below : ∀ names : List String, names ≠ [] → (∀ n ∈ names, Path.IsPlainName n) →
    S (K.foldl Component.enter cwd ++ names)
  stops : ∀ t, Edits S t₀ t → ∀ names : List String, (∀ n ∈ names, Path.IsPlainName n) →
    ∀ y ∈ stops cwd (K ++ names.map .normal), t.get? y = none → S y

/-- From a location of plain names, plain locations cover every path. -/
theorem covers_plainLocation {cwd : Location} (hcwd : PlainLocation cwd) (t₀ : FileTree)
    (p : String) : Covers PlainLocation cwd t₀ (Path.components p) where
  below _ _ hnames a ha :=
    (List.mem_append.mp ha).elim (plainLocation_denote hcwd p a) (hnames a)
  stops _ _ _ hnames y hy _ :=
    plainLocation_of_mem_stops hcwd (normal_plain_append p hnames) y hy

/-- Below a folder reached along directories, the locations strictly below it cover every
path that adds plain names to it: a stop above the folder, or the folder itself, is a
directory and holds something. -/
theorem covers_below {cwd : Location} (hcwd : PlainLocation cwd) {t₀ : FileTree} {F : String}
    (hdirs : ∀ x ∈ stops cwd (Path.components F), t₀.get? x = some .directory)
    {dn : List String} (hdn : ∀ n ∈ dn, Path.IsPlainName n) :
    Covers (Below (Path.denote cwd F)) cwd t₀ (Path.components F ++ dn.map Component.normal) := by
  have hend : (Path.components F ++ dn.map Component.normal).foldl Component.enter cwd =
      Path.denote cwd F ++ dn := by
    rw [List.foldl_append, Path.foldl_enter_normal]
    rfl
  constructor
  · intro names hne hnames
    rw [hend, List.append_assoc]
    refine ⟨?_, List.prefix_append _ _, fun h => hne ?_⟩
    · intro a ha
      rcases List.mem_append.mp ha with ha | ha
      · exact plainLocation_denote hcwd F a ha
      · exact (List.mem_append.mp ha).elim (hdn a) (hnames a)
    · have hnil : dn = [] ∧ names = [] := by simpa using h
      exact hnil.2
  · intro t ht names hnames y hy hnone
    have hall : ∀ n ∈ dn ++ names, Path.IsPlainName n := fun n hn =>
      (List.mem_append.mp hn).elim (hdn n) (hnames n)
    have hplain := plainLocation_of_mem_stops hcwd (normal_plain_append F hall) y
    rw [List.append_assoc, ← List.map_append] at hy
    refine ⟨hplain hy, ?_⟩
    have hdir : ∀ x ∈ stops cwd (Path.components F), t.get? x ≠ none := fun x hx h => by
      rw [ht.get?_directory (hdirs x hx)] at h
      cases h
    rw [stops_append] at hy
    rcases List.mem_append.mp hy with hy | hy
    · exact absurd hnone (hdir y (List.dropLast_subset _ hy))
    · refine ⟨prefix_of_mem_stops_map_normal hy, fun h => hdir y ?_ hnone⟩
      rw [h]
      exact end_mem_stops _ _

end FileTree

namespace Act

variable {α β σ : Type} {I : Machine → Prop}

-- ============================================================================
-- Triples: what an action keeps and what it answers
-- ============================================================================

/-- From every machine with `I` the action ends in one with `I`, failures included, and a
success answers a value with `Q`. -/
def Triple (I : Machine → Prop) (a : Act α) (Q : α → Prop) : Prop :=
  ∀ m, I m → I (a.run m).2 ∧ ∀ x, (a.run m).1 = .ok x → Q x

namespace Triple

theorem of_run {a : Act α} {Q : α → Prop} (h : Triple I a Q) {m m' : Machine} {x : α}
    (hm : I m) (hrun : a.run m = (.ok x, m')) : I m' ∧ Q x := by
  obtain ⟨hI, hQ⟩ := h m hm
  rw [hrun] at hI hQ
  exact ⟨hI, hQ x rfl⟩

theorem of_keeps {a : Act α} (h : Keeps I a) : Triple I a fun _ => True :=
  fun m hm => ⟨h m hm, fun _ _ => trivial⟩

theorem keeps {a : Act α} {Q : α → Prop} (h : Triple I a Q) : Keeps I a := fun m hm => (h m hm).1

theorem mono {a : Act α} {Q R : α → Prop} (h : Triple I a Q) (hQR : ∀ x, Q x → R x) :
    Triple I a R :=
  fun m hm => ⟨(h m hm).1, fun x hx => hQR x ((h m hm).2 x hx)⟩

theorem pure {x : α} {Q : α → Prop} (hx : Q x) : Triple I (Pure.pure x : Act α) Q :=
  fun _ hm => ⟨hm, fun _ hy => Except.ok.inj hy ▸ hx⟩

theorem throw (e : Error) {Q : α → Prop} : Triple I (MonadExcept.throw e : Act α) Q :=
  fun _ hm => ⟨hm, fun _ hy => by cases hy⟩

theorem bind {a : Act α} {f : α → Act β} {Q : α → Prop} {R : β → Prop} (ha : Triple I a Q)
    (hf : ∀ x, Q x → Triple I (f x) R) : Triple I (a >>= f) R := by
  intro m hm
  obtain ⟨hI, hQ⟩ := ha m hm
  rw [run_bind]
  rcases hr : a.run m with ⟨r, m'⟩
  rw [hr] at hI hQ
  cases r with
  | ok x => exact hf x (hQ x rfl) m' hI
  | error e => exact ⟨hI, fun _ hy => by cases hy⟩

theorem ite {p : Prop} [Decidable p] {a b : Act α} {Q : α → Prop} (ha : p → Triple I a Q)
    (hb : ¬ p → Triple I b Q) : Triple I (if p then a else b) Q := by
  by_cases hp : p
  · rw [if_pos hp]
    exact ha hp
  · rw [if_neg hp]
    exact hb hp

theorem get_bind {f : Machine → Act β} {R : β → Prop} (hf : ∀ m, I m → Triple I (f m) R) :
    Triple I (get >>= f) R := by
  intro m hm
  rw [run_bind, run_get]
  exact hf m hm m hm

theorem query {f : FileTree → Location → α} {Q : α → Prop}
    (h : ∀ m, I m → Q (f m.files m.cwd)) : Triple I (Act.query f) Q := by
  intro m hm
  rw [run_query]
  exact ⟨hm, fun _ hx => Except.ok.inj hx ▸ h m hm⟩

/-- A loop whose body keeps `I` and a property of its state keeps both; the induction is on
the list. -/
theorem forIn {γ : Type} {l : List γ} {init : σ} {body : γ → σ → Act (ForInStep σ)}
    {P : σ → Prop} (hinit : P init)
    (hb : ∀ x ∈ l, ∀ s, P s → Triple I (body x s) fun step => P step.value) :
    Triple I (forIn l init body) P := by
  induction l generalizing init with
  | nil => exact Triple.pure hinit
  | cons x xs ih =>
    rw [List.forIn_cons]
    refine Triple.bind (hb x List.mem_cons_self init hinit) fun step hstep => ?_
    cases step with
    | done s => exact Triple.pure hstep
    | yield s => exact ih hstep fun y hy => hb y (List.mem_cons_of_mem _ hy)

end Triple

/-- A walk keeps `I` and answers values with `Q` when every visit below plain names does, in
trees of plain names; the induction is on the walk's depth bound. -/
theorem walkSortedFrom_triple {visit : WalkEntry → Act (List β)} {Q : β → Prop}
    (hnames : ∀ m, I m → m.files.PlainNames)
    (hv : ∀ e : WalkEntry, (∀ n ∈ e.below, Path.IsPlainName n) →
      Triple I (visit e) (∀ y ∈ ·, Q y)) :
    ∀ fuel path below l, (∀ n ∈ below, Path.IsPlainName n) →
      Triple I (walkSortedFrom visit fuel path below l) (∀ y ∈ ·, Q y) := by
  intro fuel
  induction fuel with
  | zero => intro path below l _; exact Triple.pure (by simp)
  | succ fuel ih =>
    intro path below l hbelow
    unfold walkSortedFrom
    refine Triple.get_bind fun m hm => ?_
    refine Triple.bind (Triple.forIn (P := (∀ y ∈ ·, Q y)) (by simp) fun x hx s hs => ?_)
      fun s hs => Triple.pure hs
    obtain ⟨n, isDir⟩ := x
    -- every name walked into is a child, so a plain name
    have hn : Path.IsPlainName n := by
      obtain ⟨_, hmem, heq⟩ := List.mem_map.mp hx
      cases heq
      exact (hnames m hm).child (mem_sortNames.mp hmem)
    have hb : ∀ a ∈ below ++ [n], Path.IsPlainName a := fun a ha =>
      (List.mem_append.mp ha).elim (hbelow a) fun ha => (List.mem_singleton.mp ha) ▸ hn
    refine Triple.bind (hv _ hb) fun v hv' => Triple.ite (fun _ => ?_) fun _ => Triple.pure ?_
    · exact Triple.bind (ih _ _ _ hb) fun w hw => Triple.pure
        (List.forall_mem_append.mpr ⟨List.forall_mem_append.mpr ⟨hs, hv'⟩, hw⟩)
    · exact List.forall_mem_append.mpr ⟨hs, hv'⟩

theorem walkSorted_triple {visit : WalkEntry → Act (List β)} {Q : β → Prop}
    (hnames : ∀ m, I m → m.files.PlainNames)
    (hv : ∀ e : WalkEntry, (∀ n ∈ e.below, Path.IsPlainName n) →
      Triple I (visit e) (∀ y ∈ ·, Q y)) (p : String) :
    Triple I (walkSorted visit p) (∀ y ∈ ·, Q y) := by
  unfold walkSorted
  refine Triple.get_bind fun m hm => ?_
  split
  · exact walkSortedFrom_triple hnames hv _ _ _ _ (by simp)
  · exact Triple.pure (by simp)

end Act

-- ============================================================================
-- Machines edited from a tree, and the header copy
-- ============================================================================

/-- Machines in the working directory `cwd` whose tree came from `t₀` by edits at `S`. -/
def Machine.EditedFrom (S : Location → Prop) (cwd : Location) (t₀ : FileTree) (m : Machine) :
    Prop :=
  m.cwd = cwd ∧ FileTree.Edits S t₀ m.files

theorem Machine.EditedFrom.plainNames {S : Location → Prop} {cwd : Location} {t₀ : FileTree}
    (hS : ∀ y, S y → FileTree.PlainLocation y) (ht₀ : t₀.PlainNames) {m : Machine}
    (h : m.EditedFrom S cwd t₀) : m.files.PlainNames :=
  h.2.plainNames hS ht₀

/-- A change of the tree keeps the machine edited from `t₀` when every change it makes to a
tree edited from `t₀` is an edit at `S`. -/
theorem Act.Keeps.change_edits {S : Location → Prop} {cwd : Location} {t₀ : FileTree}
    (w : IoFault → Error) {f : FileTree → Location → Except IoFault FileTree}
    (hf : ∀ t t', FileTree.Edits S t₀ t → f t cwd = .ok t' → FileTree.Edits S t t') :
    Act.Keeps (Machine.EditedFrom S cwd t₀) (Act.change w f) := by
  rintro m ⟨hcwd, he⟩
  rw [Act.run_change]
  rcases hr : f m.files m.cwd with e | t'
  · exact ⟨hcwd, he⟩
  · exact ⟨hcwd, he.trans (hf _ _ he (hcwd ▸ hr))⟩

/-- A path that adds plain names, at least one, to `dst`. -/
def Path.Extends (dst y : String) : Prop :=
  ∃ names : List String, names ≠ [] ∧ (∀ n ∈ names, Path.IsPlainName n) ∧
    y = Path.join dst ("/".intercalate names)

section HeaderCopy

variable {S : Location → Prop} {cwd : Location} {t₀ : FileTree}

/-- Copying one visited file below plain names makes its folders and its copy where `S`
covers the destination, and answers copies that extend the destination. -/
theorem copyMatching_triple (pat : Glob.Pattern) {dst : String}
    (hcov : FileTree.Covers S cwd t₀ (Path.components dst)) {e : WalkEntry}
    (he : ∀ n ∈ e.below, Path.IsPlainName n) :
    Act.Triple (Machine.EditedFrom S cwd t₀) (copyMatching pat dst e)
      (∀ y ∈ ·, Path.Extends dst y) := by
  unfold copyMatching
  refine Act.Triple.ite (fun _ => Act.Triple.pure (by simp)) fun _ => ?_
  split
  · exact Act.Triple.pure (by simp)
  · rename_i name hlast
    have hne : e.below ≠ [] := fun h => by simp [h] at hlast
    have hK := Path.components_join_intercalate dst hne he
    -- the copy lies strictly below the destination
    have hS : S (Path.denote cwd (Path.join dst ("/".intercalate e.below))) := by
      rw [Path.denote_join_intercalate cwd dst hne he]
      exact hcov.below _ hne he
    have hres : Act.Triple (Machine.EditedFrom S cwd t₀)
        (pure [Path.join dst ("/".intercalate e.below)] : Act (List String))
        (∀ y ∈ ·, Path.Extends dst y) :=
      Act.Triple.pure (by simpa using ⟨e.below, hne, he, rfl⟩)
    refine Act.Triple.ite (fun _ => Act.Triple.pure (by simp)) fun _ => ?_
    dsimp only
    split
    · -- the copy's folder is the destination with all names but the last
      rename_i q hq
      have hKq : Path.components q =
          Path.components dst ++ e.below.dropLast.map Component.normal := by
        rw [Path.components_parent? hq, hK, List.dropLast_append_of_ne_nil (by simpa using hne),
          List.map_dropLast]
      refine Act.Triple.bind (Act.Triple.of_keeps (Act.Keeps.change_edits _
        fun t t' ht h => ?_)) fun _ _ => Act.Triple.bind (Act.Triple.of_keeps
          (Act.Keeps.change_edits _ fun t t' _ h => ?_)) fun _ _ => hres
      · exact (FileTree.edits_createDirAll h).mono fun y hy =>
          hcov.stops t ht _ (fun n hn => he n (List.dropLast_subset _ hn)) y (hKq ▸ hy.1) hy.2
      · exact (FileTree.edits_copyFile h).mono fun y (hy : y = _) => hy ▸ hS
    · refine Act.Triple.bind (Act.Triple.of_keeps (Act.Keeps.change_edits _
        fun t t' _ h => ?_)) fun _ _ => hres
      exact (FileTree.edits_copyFile h).mono fun y (hy : y = _) => hy ▸ hS

/-- Copying the headers into a folder makes every folder and copy where `S` covers the rule's
destination, and answers copies that extend it. -/
theorem copyHeaders_triple (rule : HeaderRule) (src F : String)
    (hnames : ∀ m : Machine, m.EditedFrom S cwd t₀ → m.files.PlainNames)
    (hcov : FileTree.Covers S cwd t₀ (Path.components (Path.join F rule.dst))) :
    Act.Triple (Machine.EditedFrom S cwd t₀) (copyHeaders rule src F)
      (∀ y ∈ ·, Path.Extends (Path.join F rule.dst) y) := by
  unfold copyHeaders
  split
  · exact Act.Triple.throw _
  · refine Act.Triple.bind (Act.Triple.query (Q := fun _ => True) fun _ _ => trivial)
      fun _ _ => ?_
    exact Act.Triple.ite (fun _ => Act.Triple.pure (by simp))
      fun _ => Act.walkSorted_triple hnames (fun _ he => copyMatching_triple _ hcov he) _

/-- Copying one visited file keeps a consistent tree consistent: it makes the copy's folders
and copies the file, each an edit that keeps it. -/
theorem copyMatching_keeps_consistent (pat : Glob.Pattern) (dst : String) (e : WalkEntry) :
    Act.Keeps (·.files.Consistent) (copyMatching pat dst e) := by
  unfold copyMatching
  refine .ite (.pure _) ?_
  split
  · exact .pure _
  · refine .ite (.pure _) ?_
    dsimp only
    split
    · exact .bind (.change _ fun _ _ _ h hc => hc.createDirAll h) fun _ =>
        .bind (.change _ fun _ _ _ h hc => hc.copyFile h) fun _ => .pure _
    · exact .bind (.change _ fun _ _ _ h hc => hc.copyFile h) fun _ => .pure _

/-- Copying the headers keeps a consistent tree consistent, whether it succeeds or fails. -/
theorem copyHeaders_keeps_consistent (rule : HeaderRule) (src F : String) :
    Act.Keeps (·.files.Consistent) (copyHeaders rule src F) := by
  unfold copyHeaders
  split
  · exact .throw _
  · refine .bind (.query _) fun _ => .ite (.pure _) ?_
    -- the walk visits below plain names, which a consistent tree has
    exact (Act.walkSorted_triple (Q := fun _ => True) (fun _ hm => hm.plainNames)
      (fun e _ => (Act.Triple.of_keeps (copyMatching_keeps_consistent _ _ e)).mono
        fun _ _ _ _ => trivial) _).keeps

end HeaderCopy

-- ============================================================================
-- Finding the artifacts
-- ============================================================================

/-- Every entry of a walk in a tree of plain names is the walked path with plain names added;
the induction is on the walk's depth bound. -/
theorem FileTree.path_of_mem_walkFrom {t : FileTree} (ht : t.PlainNames) :
    ∀ fuel path below l, ∀ e ∈ t.walkFrom fuel path below l,
      ∃ more : List String, (∀ n ∈ more, Path.IsPlainName n) ∧
        e.path = more.foldl Path.join path := by
  intro fuel
  induction fuel with
  | zero =>
    intro _ _ _ e he
    simp [FileTree.walkFrom] at he
  | succ fuel ih =>
    intro path below l e he
    unfold FileTree.walkFrom at he
    split at he
    · cases he
    · rcases List.mem_cons.mp he with rfl | he
      · exact ⟨[], by simp, rfl⟩
      · obtain ⟨n, hn, he⟩ := List.mem_flatMap.mp he
        obtain ⟨more, hmore, hpath⟩ := ih _ _ _ e he
        exact ⟨n :: more, List.forall_mem_cons.mpr ⟨ht.child hn, hmore⟩, hpath⟩
    · rw [List.mem_singleton.mp he]
      exact ⟨[], by simp, rfl⟩

theorem FileTree.path_of_mem_walk {t : FileTree} (ht : t.PlainNames) {cwd : Location}
    {p : String} {e : WalkEntry} (he : e ∈ t.walk cwd p) :
    ∃ more : List String, (∀ n ∈ more, Path.IsPlainName n) ∧ e.path = more.foldl Path.join p := by
  unfold FileTree.walk at he
  split at he
  · split at he
    · exact FileTree.path_of_mem_walkFrom ht _ _ _ _ e he
    · cases he
  · cases he

/-- An artifact found below a folder of a tree of plain names is the folder with plain names
added, and its file name holds the package name, which therefore has no slash. -/
theorem mem_findArtifacts {t : FileTree} (ht : t.PlainNames) {cwd : Location}
    {F name : String} {kind : LibraryKind} {os : Os} {a : String}
    (ha : a ∈ findArtifacts t cwd F name kind os) :
    (∃ more : List String, (∀ n ∈ more, Path.IsPlainName n) ∧ a = more.foldl Path.join F) ∧
      '/' ∉ name.toList := by
  unfold findArtifacts sortPaths at ha
  obtain ⟨e, he, hsel⟩ := List.mem_filterMap.mp ((sortBy_perm _ _).mem_iff.mp ha)
  split at hsel
  · cases hsel
  · split at hsel
    · rename_i f hf
      split at hsel
      · rename_i hlib
        cases hsel
        exact ⟨FileTree.path_of_mem_walk ht he,
          slash_not_mem_of_isLibraryArtifact (Path.isPlainName_of_fileName? hf).1 hlib⟩
      · cases hsel
    · cases hsel

/-- A folder found as a directory was reached along directories: it is where its path leads,
and every stop of the path is a directory. -/
theorem FileTree.directoryAt_stops {t : FileTree} {cwd L : Location} {p : String}
    (h : t.directoryAt cwd p = .ok L) :
    L = Path.denote cwd p ∧
      ∀ x ∈ FileTree.stops cwd (Path.components p), t.get? x = some .directory := by
  have hL := FileTree.get?_of_directoryAt h
  unfold FileTree.directoryAt at h
  cases hr : t.resolve cwd p with
  | error e => simp [hr, bind, Except.bind] at h
  | ok r =>
    obtain ⟨hd, hloc⟩ := FileTree.resolve_location hr
    simp only [hr, bind, Except.bind] at h
    have hrL : r.location = L := by
      split at h
      · cases h
      · cases h
        rfl
      · cases h
    obtain ⟨hdirs, -⟩ := FileTree.descend_eq_ok_iff.mp hd
    rw [← hrL, hloc] at hL
    exact ⟨hrL ▸ hloc, FileTree.stops_dirs_of_end hdirs hL⟩

namespace Orchestrator

/-- Collecting keeps what copying the headers keeps, and a success staged the output, the
copies, and a list of artifacts that is not empty, each the folder with plain names added; the
package name then has no slash. -/
theorem collectPackage_triple {I : Machine → Prop} (c : RunContext) (output : StepOutput)
    {QH : List String → Prop}
    (hcopy : Act.Triple I (copyHeaders c.recipe.headers c.layout.sourceRoot
      c.layout.packageFolder) QH)
    (hnames : ∀ m, I m → m.files.PlainNames) :
    Act.Triple I (collectPackage c output) fun staged =>
      staged.1 = output ∧ QH staged.2.1 ∧ '/' ∉ c.recipe.package.name.toList ∧
        ∀ a ∈ staged.2.2, ∃ more : List String, (∀ n ∈ more, Path.IsPlainName n) ∧
          a = more.foldl Path.join c.layout.packageFolder := by
  unfold collectPackage
  refine Act.Triple.bind hcopy fun headers hh => Act.Triple.bind (Act.Triple.query
    (Q := fun arts => ∀ a ∈ arts, (∃ more : List String, (∀ n ∈ more, Path.IsPlainName n) ∧
      a = more.foldl Path.join c.layout.packageFolder) ∧ '/' ∉ c.recipe.package.name.toList)
    fun m hm _ ha => mem_findArtifacts (hnames m hm) ha) fun arts harts => ?_
  dsimp only
  refine Act.Triple.ite (fun _ => Act.Triple.bind (Act.Triple.throw (Q := fun _ => False) _)
    fun _ h => h.elim)
    fun hne => Act.Triple.pure ⟨rfl, hh, ?_, fun a ha => (harts a ha).1⟩
  -- some artifact was found, and its name holds the package name
  obtain ⟨a, ha⟩ := List.exists_mem_of_ne_nil arts fun h => hne (by simp [h])
  exact (harts a ha).2

/-- Describing a staged package makes the pkg-config folder and writes the pkg-config file and
the manifest where `S` covers the package folder, the package name having no slash, and a
success reports them with the staged output, copies and artifacts. -/
theorem writePackageMetadata_triple {S : Location → Prop} {cwd : Location} {t₀ : FileTree}
    (c : RunContext) (staged : StepOutput × List String × List String)
    (hname : '/' ∉ c.recipe.package.name.toList)
    (hcov : FileTree.Covers S cwd t₀ (Path.components c.layout.packageFolder)) :
    Act.Triple (Machine.EditedFrom S cwd t₀) (writePackageMetadata c staged)
      (· = ⟨c.layout.packageFolder, staged.2.2, staged.2.1,
        Path.join c.layout.packageFolder manifestFile,
        Path.join (Path.join (Path.join c.layout.packageFolder "lib") "pkgconfig")
          (c.recipe.package.name ++ ".pc"), staged.1⟩) := by
  unfold writePackageMetadata
  have hlib : Path.IsPlainName "lib" := by decide
  have hpkg : Path.IsPlainName "pkgconfig" := by decide
  have hpc := Path.isPlainName_append_pc hname
  -- the pkg-config folder adds `lib/pkgconfig` to the package folder
  have hdirK : Path.components (Path.join (Path.join c.layout.packageFolder "lib") "pkgconfig") =
      Path.components c.layout.packageFolder ++ ["lib", "pkgconfig"].map Component.normal := by
    rw [Path.components_join_plain _ hpkg, Path.components_join_plain _ hlib]
    simp
  have hpcS : S (Path.denote cwd (Path.join (Path.join (Path.join c.layout.packageFolder "lib")
      "pkgconfig") (c.recipe.package.name ++ ".pc"))) := by
    rw [Path.denote_join_plain _ _ hpc, Path.denote_join_plain _ _ hpkg,
      Path.denote_join_plain _ _ hlib]
    simpa [Path.denote] using hcov.below ["lib", "pkgconfig", c.recipe.package.name ++ ".pc"]
      (by simp) (by simp [hlib, hpkg, hpc])
  have hmanS : S (Path.denote cwd (Path.join c.layout.packageFolder manifestFile)) := by
    rw [Path.denote_join_plain _ _ manifestFile_isPlainName]
    exact hcov.below [manifestFile] (by simp) (by simp [manifestFile_isPlainName])
  refine Act.Triple.bind (Act.Triple.of_keeps (Act.Keeps.change_edits _ fun t t' ht h => ?_))
    fun _ _ => Act.Triple.bind (Act.Triple.of_keeps (Act.Keeps.change_edits _
      fun t t' _ h => ?_)) fun _ _ => Act.Triple.bind (Act.Triple.of_keeps
        (Act.Keeps.change_edits _ fun t t' _ h => ?_)) fun _ _ => Act.Triple.pure rfl
  · exact (FileTree.edits_createDirAll h).mono fun y hy =>
      hcov.stops t ht ["lib", "pkgconfig"] (by simp [hlib, hpkg]) y (hdirK ▸ hy.1) hy.2
  · exact (FileTree.edits_writeText h).mono fun y (hy : y = _) => hy ▸ hpcS
  · exact (FileTree.edits_writeText h).mono fun y (hy : y = _) => hy ▸ hmanS

/-- The package stage keeps a machine's tree consistent, failures included, when filling the
folder does: every change the stage makes itself is an edit that keeps it. -/
theorem package_keeps_consistent (o : Orchestrator) (c : RunContext)
    (hfill : Act.Keeps (·.files.Consistent) (o.fillPackageFolder c)) :
    Act.Keeps (·.files.Consistent) (o.package c) := by
  rw [package_eq_phases]
  refine .bind ?_ fun _ => .bind hfill fun output =>
    .bind (collectPackage_keeps c output (copyHeaders_keeps_consistent _ _ _)) fun staged => ?_
  · unfold clearPackageFolder
    refine .bind (.query _) fun _ => .bind (.ofOutcome _) fun _ => .bind (.query _) fun _ => ?_
    dsimp only
    exact .ite (.bind (.change _ fun _ _ _ h hc => hc.removeDirAll h) fun _ =>
      .change _ fun _ _ _ h hc => hc.createDirAll h) (.change _ fun _ _ _ h hc => hc.createDirAll h)
  · unfold writePackageMetadata
    exact .bind (.change _ fun _ _ _ h hc => hc.createDirAll h) fun _ =>
      .bind (.change _ fun _ _ _ h hc => hc.writeFileWith h) fun _ =>
        .bind (.change _ fun _ _ _ h hc => hc.writeFileWith h) fun _ => .pure _

/-- The package stage fills the folder, then collects and describes what it staged. -/
theorem package_eq_filled (o : Orchestrator) (c : RunContext) :
    o.package c = (do
      let output ← (do
        clearPackageFolder c.layout
        o.fillPackageFolder c)
      let staged ← collectPackage c output
      writePackageMetadata c staged) := by
  rw [package_eq_phases]
  simp only [bind_assoc]

/-- A path that adds plain names to a folder reads, relative to the folder, as a relative path
without `..`. -/
theorem relativeText_descends {F p : String} {names : List String}
    (hn : ∀ n ∈ names, Path.IsPlainName n)
    (h : Path.components p = Path.components F ++ names.map Component.normal) :
    Path.isAbsolute (Path.relativeText F p) = false ∧
      .parent ∉ Path.components (Path.relativeText F p) := by
  rw [Path.relativeText_append_normal h]
  exact Path.intercalate_relative hn

-- ============================================================================
-- The package stage after filling the folder
-- ============================================================================

section AfterFilling

variable {o : Orchestrator} {c : RunContext} {m m₁ m₂ : Machine} {output : StepOutput}
  {staged : StepOutput × List String × List String}

/-- Once the folder is filled, the package stage goes on from the filled machine by collecting
and describing. -/
theorem package_run_of_filled
    (hfill : (do
        clearPackageFolder c.layout
        o.fillPackageFolder c).run m = (.ok output, m₁)) :
    (o.package c).run m = (do
      let staged ← collectPackage c output
      writePackageMetadata c staged).run m₁ := by
  rw [package_eq_filled, Act.run_bind, hfill]

variable (hplain : m₁.files.PlainNames) (hcwd : m₁.files.get? m₁.cwd = some .directory)
include hplain hcwd

/-- A collection from a filled tree of plain names, whatever the header destination, changes
only locations of plain names, and names a package without a slash and artifacts that add
plain names to the folder. -/
theorem collectPackage_run_plain (h : (collectPackage c output).run m₁ = (.ok staged, m₂)) :
    m₂.EditedFrom FileTree.PlainLocation m₁.cwd m₁.files ∧ '/' ∉ c.recipe.package.name.toList ∧
      ∀ a ∈ staged.2.2, ∃ more : List String, (∀ n ∈ more, Path.IsPlainName n) ∧
        a = more.foldl Path.join c.layout.packageFolder := by
  have hcollect := collectPackage_triple
    (I := Machine.EditedFrom FileTree.PlainLocation m₁.cwd m₁.files) c output
    (copyHeaders_triple c.recipe.headers _ _ (fun _ hm => hm.plainNames (fun _ h => h) hplain)
      (FileTree.covers_plainLocation (hplain _ _ hcwd) _ _))
    fun _ hm => hm.plainNames (fun _ h => h) hplain
  obtain ⟨hm₂, -, -, hname, harts⟩ := hcollect.of_run ⟨rfl, FileTree.Edits.refl _ _⟩ h
  exact ⟨hm₂, hname, harts⟩

variable (hdirs : ∀ x ∈ FileTree.stops m₁.cwd (Path.components c.layout.packageFolder),
  m₁.files.get? x = some .directory)
include hdirs

/-- Describing, from wherever a collection left the machine, writes strictly below the folder:
the collection kept the folder's stops directories. -/
theorem writePackageMetadata_below (h : (collectPackage c output).run m₁ = (.ok staged, m₂)) :
    m₂.cwd = m₁.cwd ∧ Act.Triple (Machine.EditedFrom
      (FileTree.Below (Path.denote m₁.cwd c.layout.packageFolder)) m₁.cwd m₂.files)
      (writePackageMetadata c staged)
      (· = ⟨c.layout.packageFolder, staged.2.2, staged.2.1,
        Path.join c.layout.packageFolder manifestFile,
        Path.join (Path.join (Path.join c.layout.packageFolder "lib") "pkgconfig")
          (c.recipe.package.name ++ ".pc"), staged.1⟩) := by
  obtain ⟨hm₂, hname, -⟩ := collectPackage_run_plain hplain hcwd h
  have hdirs₂ : ∀ x ∈ FileTree.stops m₁.cwd (Path.components c.layout.packageFolder),
      m₂.files.get? x = some .directory := fun x hx => hm₂.2.get?_directory (hdirs x hx)
  refine ⟨hm₂.1, writePackageMetadata_triple c staged hname ?_⟩
  simpa using FileTree.covers_below (hplain _ _ hcwd) hdirs₂
    (by simp : ∀ n ∈ ([] : List String), Path.IsPlainName n)

/-- Whatever the header destination, the stage changes nothing outside the folder after the
collection. -/
theorem package_keeps_outside_folder
    (hfill : (do
        clearPackageFolder c.layout
        o.fillPackageFolder c).run m = (.ok output, m₁))
    (h : (collectPackage c output).run m₁ = (.ok staged, m₂)) {y : Location}
    (hy : ¬ (Path.denote m₁.cwd c.layout.packageFolder <+: y ∧
      y ≠ Path.denote m₁.cwd c.layout.packageFolder)) :
    ((o.package c).run m).2.files.get? y = m₂.files.get? y := by
  obtain ⟨hcwd₂, hdesc⟩ := writePackageMetadata_below hplain hcwd hdirs h
  rw [package_run_of_filled hfill, Act.run_bind, h]
  exact (hdesc m₂ ⟨hcwd₂, FileTree.Edits.refl _ _⟩).1.2.get?_eq fun hb => hy hb.2

/-- A stage that succeeds reports its pkg-config file and manifest below the folder, and its
artifacts relative to the folder as relative paths without `..`. -/
theorem package_reports_below_folder
    (hfill : (do
        clearPackageFolder c.layout
        o.fillPackageFolder c).run m = (.ok output, m₁))
    {r : PackageReport} (hr : ((o.package c).run m).1 = .ok r) :
    Path.denote m₁.cwd r.pkgConfig = Path.denote m₁.cwd c.layout.packageFolder ++
        ["lib", "pkgconfig", c.recipe.package.name ++ ".pc"] ∧
      Path.denote m₁.cwd r.manifest = Path.denote m₁.cwd c.layout.packageFolder ++ [manifestFile] ∧
      ∀ s ∈ r.artifacts.map (Path.relativeText r.packageFolder),
        Path.isAbsolute s = false ∧ .parent ∉ Path.components s := by
  rw [package_run_of_filled hfill] at hr
  obtain ⟨staged, m₂, h, hd⟩ := Act.run_bind_ok (Act.run_eq_of_fst_eq_ok hr)
  obtain ⟨-, hname, harts⟩ := collectPackage_run_plain hplain hcwd h
  obtain ⟨hcwd₂, hdesc⟩ := writePackageMetadata_below hplain hcwd hdirs h
  obtain ⟨-, rfl⟩ := hdesc.of_run ⟨hcwd₂, FileTree.Edits.refl _ _⟩ hd
  have hlib : Path.IsPlainName "lib" := by decide
  have hpkg : Path.IsPlainName "pkgconfig" := by decide
  refine ⟨?_, Path.denote_join_plain _ _ manifestFile_isPlainName, ?_⟩
  · rw [Path.denote_join_plain _ _ (Path.isPlainName_append_pc hname),
      Path.denote_join_plain _ _ hpkg, Path.denote_join_plain _ _ hlib]
    simp
  · intro s hs
    obtain ⟨a, ha, rfl⟩ := List.mem_map.mp hs
    obtain ⟨more, hmore, rfl⟩ := harts a ha
    exact relativeText_descends hmore (Path.components_foldl_join _ hmore)

/-- With a header destination that is a relative path without `..`, collecting and describing
change only locations strictly below the folder, and record the headers relative to the folder
as relative paths without `..`. -/
theorem collect_describe_below (output : StepOutput) (hF : c.layout.packageFolder ≠ "")
    (hrel : Path.isAbsolute c.recipe.headers.dst = false)
    (hpar : .parent ∉ Path.components c.recipe.headers.dst) :
    Act.Triple (Machine.EditedFrom (FileTree.Below
          (Path.denote m₁.cwd c.layout.packageFolder)) m₁.cwd m₁.files)
        (do
          let staged ← collectPackage c output
          writePackageMetadata c staged)
        fun r => ∀ s ∈ r.headers.map (Path.relativeText r.packageFolder),
          Path.isAbsolute s = false ∧ .parent ∉ Path.components s := by
  obtain ⟨dn, hdn, hK⟩ := Path.components_join_below hF hrel hpar
  have hcwdP : FileTree.PlainLocation m₁.cwd := hplain _ _ hcwd
  have hnames : ∀ m : Machine, m.EditedFrom (FileTree.Below
      (Path.denote m₁.cwd c.layout.packageFolder)) m₁.cwd m₁.files → m.files.PlainNames :=
    fun _ hm => hm.plainNames (fun _ h => h.1) hplain
  -- the header destination adds the plain names `dn` to the folder, so both are covered
  have hcovH : FileTree.Covers (FileTree.Below (Path.denote m₁.cwd c.layout.packageFolder))
      m₁.cwd m₁.files (Path.components (Path.join c.layout.packageFolder c.recipe.headers.dst)) := by
    rw [hK]
    exact FileTree.covers_below hcwdP hdirs hdn
  have hcovF : FileTree.Covers (FileTree.Below (Path.denote m₁.cwd c.layout.packageFolder))
      m₁.cwd m₁.files (Path.components c.layout.packageFolder) := by
    simpa using FileTree.covers_below hcwdP hdirs
      (by simp : ∀ n ∈ ([] : List String), Path.IsPlainName n)
  refine Act.Triple.bind (collectPackage_triple c output
    (copyHeaders_triple c.recipe.headers _ _ hnames hcovH) hnames) fun staged hst =>
      (writePackageMetadata_triple c staged hst.2.2.1 hcovF).mono ?_
  rintro r rfl s hs
  obtain ⟨h, hh, rfl⟩ := List.mem_map.mp hs
  obtain ⟨names, hne, hnm, rfl⟩ := hst.2.1 h hh
  have hall : ∀ n ∈ dn ++ names, Path.IsPlainName n := fun n hn =>
    (List.mem_append.mp hn).elim (hdn n) (hnm n)
  refine relativeText_descends hall ?_
  rw [Path.components_join_intercalate _ hne hnm, hK, List.map_append, List.append_assoc]

end AfterFilling

/-- After the package folder is filled, where it is reached along directories in a tree of
plain names, the rest of the stage writes strictly below the folder: describing always writes
there, and the pkg-config file and the manifest lie there, and copying the headers too when
the header destination is a relative path without `..`. A stage that succeeds records its
artifacts relative to the folder as relative paths without `..`, and its headers so when the
destination is one. -/
theorem package_writes_below_folder (o : Orchestrator) (c : RunContext) {m m₁ : Machine}
    (hc : c.layout.check m.files m.cwd = .ok ()) {output : StepOutput} {L : Location}
    (hfill : (do
        clearPackageFolder c.layout
        o.fillPackageFolder c).run m = (.ok output, m₁))
    (hplain : m₁.files.PlainNames) (hcwd : m₁.files.get? m₁.cwd = some .directory)
    (hdir : m₁.files.directoryAt m₁.cwd c.layout.packageFolder = .ok L) :
    (∀ staged m₂, (collectPackage c output).run m₁ = (.ok staged, m₂) →
      ∀ y, ¬ (L <+: y ∧ y ≠ L) → ((o.package c).run m).2.files.get? y = m₂.files.get? y) ∧
    (∀ r, ((o.package c).run m).1 = .ok r →
      Path.denote m₁.cwd r.pkgConfig = L ++ ["lib", "pkgconfig", c.recipe.package.name ++ ".pc"] ∧
      Path.denote m₁.cwd r.manifest = L ++ [manifestFile] ∧
      ∀ s ∈ r.artifacts.map (Path.relativeText r.packageFolder),
        Path.isAbsolute s = false ∧ .parent ∉ Path.components s) ∧
    (Path.isAbsolute c.recipe.headers.dst = false →
      .parent ∉ Path.components c.recipe.headers.dst →
      (∀ y, ¬ (L <+: y ∧ y ≠ L) → ((o.package c).run m).2.files.get? y = m₁.files.get? y) ∧
      ∀ r, ((o.package c).run m).1 = .ok r →
        ∀ s ∈ r.headers.map (Path.relativeText r.packageFolder),
          Path.isAbsolute s = false ∧ .parent ∉ Path.components s) := by
  obtain ⟨rfl, hdirs⟩ := FileTree.directoryAt_stops hdir
  refine ⟨fun staged m₂ h y hy => package_keeps_outside_folder hplain hcwd hdirs hfill h hy,
    fun r hr => package_reports_below_folder hplain hcwd hdirs hfill hr, fun hrel hpar => ?_⟩
  -- with such a destination the whole rest of the stage keeps every change below the folder
  have hwhole := collect_describe_below hplain hcwd hdirs output
    (Layout.packageFolder_ne_empty hc) hrel hpar m₁ ⟨rfl, FileTree.Edits.refl _ _⟩
  rw [package_run_of_filled hfill]
  exact ⟨fun y hy => hwhole.1.2.get?_eq fun hb => hy hb.2, hwhole.2⟩

/-- The machine the sample stage leaves after clearing and filling the package folder. -/
def filledStaleMachine : Machine :=
  ((do
    clearPackageFolder sampleContext.layout
    sampleOrchestrator.fillPackageFolder sampleContext).run staleMachine).2

/-- Packaging `fm` over a stale folder: once the folder is filled, the rest of the stage
changes nothing outside `/src/package`. -/
theorem sample_package_writes_below :
    sampleContext.layout.check staleMachine.files staleMachine.cwd = .ok () ∧
      (do
        clearPackageFolder sampleContext.layout
        sampleOrchestrator.fillPackageFolder sampleContext).run staleMachine =
        (.ok ⟨"meson install", "install ok", ""⟩, filledStaleMachine) ∧
      filledStaleMachine.files.PlainNames ∧
      filledStaleMachine.files.get? filledStaleMachine.cwd = some .directory ∧
      filledStaleMachine.files.directoryAt filledStaleMachine.cwd
        sampleContext.layout.packageFolder = .ok ["src", "package"] ∧
      ∀ y, ¬ (["src", "package"] <+: y ∧ y ≠ ["src", "package"]) →
        ((sampleOrchestrator.package sampleContext).run staleMachine).2.files.get? y =
          filledStaleMachine.files.get? y := by
  have hc : sampleContext.layout.check staleMachine.files staleMachine.cwd = .ok () := by
    decide +kernel
  have hfill : (do
      clearPackageFolder sampleContext.layout
      sampleOrchestrator.fillPackageFolder sampleContext).run staleMachine =
      (.ok ⟨"meson install", "install ok", ""⟩, filledStaleMachine) := by
    refine Act.run_eq_of_fst_eq_ok ?_
    have h : ((do
        clearPackageFolder sampleContext.layout
        sampleOrchestrator.fillPackageFolder sampleContext).run staleMachine).1.toOption =
        some ⟨"meson install", "install ok", ""⟩ := by decide +kernel
    revert h
    cases ((do
        clearPackageFolder sampleContext.layout
        sampleOrchestrator.fillPackageFolder sampleContext).run staleMachine).1 <;>
      simp [Except.toOption]
  have hplain : filledStaleMachine.files.PlainNames :=
    FileTree.plainNames_of_entries (by decide +kernel)
  have hcwd : filledStaleMachine.files.get? filledStaleMachine.cwd = some .directory := by
    decide +kernel
  -- the folder is reached along directories of a well-formed tree
  have hwf : filledStaleMachine.files.WellFormed := by decide +kernel
  have hp : .parent ∉ Path.components sampleContext.layout.packageFolder := by decide +kernel
  have hL : filledStaleMachine.files.get? (Path.denote filledStaleMachine.cwd
      sampleContext.layout.packageFolder) = some .directory := by decide +kernel
  have hden : Path.denote filledStaleMachine.cwd sampleContext.layout.packageFolder =
      ["src", "package"] := by decide +kernel
  have hdir : filledStaleMachine.files.directoryAt filledStaleMachine.cwd
      sampleContext.layout.packageFolder = .ok ["src", "package"] := by
    rw [← hden]
    exact FileTree.directoryAt_of_descend (by decide +kernel) (hwf.descend_components hp hL) hL
  exact ⟨hc, hfill, hplain, hcwd, hdir,
    ((package_writes_below_folder sampleOrchestrator sampleContext hc hfill hplain hcwd
      hdir).2.2 (by decide +kernel) (by decide +kernel)).1⟩

/-- The library `fm` copying its headers from `inc` to `../escape`, a destination that the
checks of the recipe accept. -/
def escapeContext : RunContext :=
  { sampleContext with
    recipe := { package := { name := "fm", version := "1.0.0", url := "https://example.org/fm" }
                headers := { pattern := "*.h", src := "inc", dst := "../escape" } } }

/-- Sources with one header. -/
def escapeSourceMachine : Machine :=
  { files := ⟨[(["src"], .directory), (["src", "inc"], .directory),
      (["src", "inc", "fm.h"], .file "int fm;" 420)]⟩ }

/-- With the header destination `../escape` the package stage succeeds, copies the header to
`/src/escape/fm.h`, beside the package folder `/src/package` where nothing was, and records it
in the manifest as `../escape/fm.h`. -/
theorem header_copies_escape_folder :
    escapeContext.recipe.validate.isOk = true ∧
      escapeContext.layout.check escapeSourceMachine.files escapeSourceMachine.cwd = .ok () ∧
      ((sampleOrchestrator.package escapeContext).run escapeSourceMachine).1.toBool = true ∧
      escapeSourceMachine.files.get? ["src", "escape", "fm.h"] = none ∧
      ((sampleOrchestrator.package escapeContext).run escapeSourceMachine).2.files.get?
        ["src", "escape", "fm.h"] = some (.file "int fm;" 420) ∧
      ((sampleOrchestrator.package escapeContext).run escapeSourceMachine).1.toOption.map
        (fun r => r.headers.map (Path.relativeText r.packageFolder)) = some ["../escape/fm.h"] := by
  refine ⟨by decide +kernel, by decide +kernel, by decide +kernel, by decide +kernel,
    by decide +kernel, by decide +kernel⟩

end Orchestrator

end BuildRecipe
