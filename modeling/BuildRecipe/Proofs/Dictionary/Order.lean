import BuildRecipe.Dictionary
/-!
# Dictionaries in name order

A dictionary lists its entries in strictly increasing order of name (`Dictionary.Ordered`),
as a sorted map does, and storing keeps that order (`Dictionary.Ordered.insert`), so the
dictionaries in name order form a type of their own (`OrderedDictionary`) with storing on it.
In such a dictionary a name occurs once, so storing under a name that is already present
changes its value where it stands and nothing else (`insert_of_mem`).
A dictionary whose values are computed from its own entries has the same names, and a
look-up in it computes from the entry found (`keys_mapValues`, `get?_mapValues`).
-/

namespace BuildRecipe

namespace Dictionary

variable {α β : Type}

/-- The names are strictly increasing. -/
def Ordered (d : Dictionary α) : Prop := d.keys.Pairwise (· < ·)

instance (d : Dictionary α) : Decidable d.Ordered :=
  inferInstanceAs (Decidable (d.keys.Pairwise (· < ·)))

/-- Each value replaced by a function of its name and itself. -/
def mapValues (d : Dictionary α) (f : String → α → β) : Dictionary β :=
  d.map fun e => (e.1, f e.1 e.2)

@[simp] theorem keys_nil : keys ([] : Dictionary α) = [] := rfl

@[simp] theorem keys_cons (k : String) (v : α) (d : Dictionary α) :
    keys ((k, v) :: d) = k :: keys d := rfl

theorem mem_of_get? {d : Dictionary α} {k : String} {v : α} (h : d.get? k = some v) :
    (k, v) ∈ d := by
  obtain ⟨e, he, rfl⟩ := Option.map_eq_some_iff.mp h
  have hk : e.1 = k := by simpa using List.find?_some he
  exact hk ▸ List.mem_of_find?_eq_some he

theorem mem_keys_of_get? {d : Dictionary α} {k : String} {v : α} (h : d.get? k = some v) :
    k ∈ d.keys := by
  unfold keys
  exact List.mem_map_of_mem (mem_of_get? h)

theorem keys_mapValues (d : Dictionary α) (f : String → α → β) :
    (d.mapValues f).keys = d.keys := by
  simp [mapValues, keys]

theorem get?_mapValues (d : Dictionary α) (f : String → α → β) (k : String) :
    (d.mapValues f).get? k = (d.get? k).map (f k) := by
  induction d with
  | nil => rfl
  | cons e rest ih =>
    obtain ⟨k', v⟩ := e
    have hcons : mapValues ((k', v) :: rest) f = (k', f k' v) :: mapValues rest f := rfl
    rw [hcons, get?_cons, get?_cons]
    by_cases h : k' = k
    · subst h; simp
    · simp [h, ih]

theorem Ordered.mapValues {d : Dictionary α} (hd : d.Ordered) (f : String → α → β) :
    (d.mapValues f).Ordered := by
  rw [Ordered, keys_mapValues]
  exact hd

theorem mem_keys_insert {d : Dictionary α} {k x : String} {v : α}
    (hx : x ∈ (d.insert k v).keys) : x = k ∨ x ∈ d.keys := by
  induction d with
  | nil => simpa [insert] using hx
  | cons e rest ih =>
    obtain ⟨k', v'⟩ := e
    unfold insert at hx
    split at hx
    · simpa using hx
    · split at hx
      · rename_i h2
        subst h2
        simpa using hx
      · simp only [keys_cons, List.mem_cons] at hx ⊢
        rcases hx with rfl | hx
        · exact .inr (.inl rfl)
        · rcases ih hx with h | h
          · exact .inl h
          · exact .inr (.inr h)

/-- Storing keeps the names strictly increasing: a name below the first goes in front, the
first name is replaced, and a name above it is stored further down. -/
theorem Ordered.insert {d : Dictionary α} (hd : d.Ordered) (k : String) (v : α) :
    (d.insert k v).Ordered := by
  induction d with
  | nil => simp [Ordered, Dictionary.insert, keys]
  | cons e rest ih =>
    obtain ⟨k', v'⟩ := e
    simp only [Ordered, keys_cons, List.pairwise_cons] at hd
    obtain ⟨hlt, hrest⟩ := hd
    unfold Dictionary.insert
    by_cases h1 : k < k'
    · rw [if_pos h1]
      simp only [Ordered, keys_cons, List.pairwise_cons, List.mem_cons]
      refine ⟨?_, hlt, hrest⟩
      rintro x (rfl | hx)
      · exact h1
      · exact String.lt_trans h1 (hlt x hx)
    · by_cases h2 : k = k'
      · subst h2
        rw [if_neg h1, if_pos rfl]
        simp only [Ordered, keys_cons, List.pairwise_cons]
        exact ⟨hlt, hrest⟩
      · rw [if_neg h1, if_neg h2]
        have hk' : k' < k := Std.lt_of_le_of_ne h1 (Ne.symm h2)
        simp only [Ordered, keys_cons, List.pairwise_cons]
        refine ⟨fun x hx => ?_, ih hrest⟩
        rcases mem_keys_insert hx with rfl | hx
        · exact hk'
        · exact hlt x hx

/-- In a dictionary in name order, storing under a name already present replaces its value
where it stands. -/
theorem insert_of_mem {d : Dictionary α} (hd : d.Ordered) {k : String} (hk : k ∈ d.keys)
    (v : α) : d.insert k v = d.map fun e => if e.1 = k then (k, v) else e := by
  induction d with
  | nil => simp at hk
  | cons e rest ih =>
    obtain ⟨k', v'⟩ := e
    simp only [Ordered, keys_cons, List.pairwise_cons] at hd
    obtain ⟨hlt, hrest⟩ := hd
    simp only [keys_cons, List.mem_cons] at hk
    unfold insert
    by_cases h1 : k < k'
    · -- a name below the first one present is not present
      exfalso
      rcases hk with rfl | hk
      · exact String.lt_irrefl k h1
      · exact String.lt_asymm h1 (hlt k hk)
    · by_cases h2 : k = k'
      · subst h2
        -- the names after the first are greater, so their entries stay
        have hkeep : (rest.map fun e => if e.1 = k then (k, v) else e) = rest := by
          calc (rest.map fun e => if e.1 = k then (k, v) else e) = rest.map id := by
                apply List.map_congr_left
                intro e he
                have hne : e.1 ≠ k := fun h =>
                  String.lt_irrefl k (h ▸ hlt e.1 (List.mem_map_of_mem he))
                simp [hne]
            _ = rest := List.map_id rest
        simp [hkeep]
      · have hk' : k ∈ keys rest := hk.resolve_left h2
        simp [h1, h2, Ne.symm h2, ih hrest hk']

/-- Storing under a name present in a dictionary of computed values is computing the value
of that name anew. -/
theorem insert_mapValues {d : Dictionary α} (hd : d.Ordered) {k : String} (hk : k ∈ d.keys)
    (f : String → α → β) (v : β) :
    (d.mapValues f).insert k v = d.mapValues fun k' a => if k' = k then v else f k' a := by
  rw [insert_of_mem (hd.mapValues f) ((keys_mapValues d f).symm ▸ hk), mapValues, mapValues,
    List.map_map]
  apply List.map_congr_left
  intro e _
  by_cases h : e.1 = k
  · simp [h]
  · simp [h]

end Dictionary

/-- Dictionaries whose names are strictly increasing, as a sorted map keeps them. -/
abbrev OrderedDictionary (α : Type) := { d : Dictionary α // d.Ordered }

namespace OrderedDictionary

variable {α : Type}

/-- The dictionary without entries. -/
def empty : OrderedDictionary α := ⟨[], List.Pairwise.nil⟩

/-- Storing under a name, at its place in name order. -/
def insert (d : OrderedDictionary α) (k : String) (v : α) : OrderedDictionary α :=
  ⟨d.1.insert k v, d.2.insert k v⟩

/-- The dictionary built by storing entries from the left. -/
def ofList (xs : List (String × α)) : OrderedDictionary α :=
  xs.foldl (fun d (k, v) => d.insert k v) empty

theorem val_ofList (xs : List (String × α)) : (ofList xs).1 = Dictionary.ofList xs := by
  -- both fold the same insertions, from the empty dictionary
  suffices h : ∀ d : OrderedDictionary α,
      (xs.foldl (fun d (k, v) => d.insert k v) d).1 =
        xs.foldl (fun d (k, v) => d.insert k v) d.1 from h empty
  induction xs with
  | nil => intro d; rfl
  | cons x rest ih => intro d; exact ih (d.insert x.1 x.2)

end OrderedDictionary

end BuildRecipe
