/-!
# Dictionaries

A dictionary is a list of named entries in strictly increasing order of name, so that
its listing is sorted and each name occurs once. `insert` puts an entry at its place
or replaces the entry of the same name. Main statements: a look-up after `insert`
finds the inserted value for that name and the old value for every other name, and
`insert` keeps the names strictly increasing.
-/

namespace BuildRecipe

/-- Entries with strictly increasing names. -/
abbrev Dictionary (α : Type) := List (String × α)

namespace Dictionary

variable {α : Type}

/-- The value stored under a name. -/
def get? (d : Dictionary α) (k : String) : Option α := (d.find? (·.1 == k)).map (·.2)

/-- The dictionary with `v` stored under `k`, at its place in name order. -/
def insert (d : Dictionary α) (k : String) (v : α) : Dictionary α :=
  match d with
  | [] => [(k, v)]
  | (k', v') :: rest =>
    if k < k' then (k, v) :: (k', v') :: rest
    else if k = k' then (k, v) :: rest
    else (k', v') :: insert rest k v

/-- The names, in increasing order. -/
def keys (d : Dictionary α) : List String := d.map (·.1)

/-- The dictionary built by inserting entries from the left. -/
def ofList (xs : List (String × α)) : Dictionary α :=
  xs.foldl (fun d (k, v) => d.insert k v) []

@[simp] theorem get?_nil (k : String) : get? ([] : Dictionary α) k = none := rfl

theorem get?_cons (k k' : String) (v : α) (rest : Dictionary α) :
    get? ((k', v) :: rest) k = if k' = k then some v else get? rest k := by
  by_cases h : k' = k
  · simp [get?, List.find?, h]
  · have hb : (k' == k) = false := by simp [h]
    simp [get?, List.find?, hb, h]

theorem get?_insert_self (d : Dictionary α) (k : String) (v : α) :
    get? (d.insert k v) k = some v := by
  induction d with
  | nil => simp [insert, get?_cons]
  | cons e rest ih =>
    obtain ⟨k', v'⟩ := e
    unfold insert
    by_cases h1 : k < k'
    · simp [h1, get?_cons]
    · by_cases h2 : k = k'
      · simp [h2, get?_cons]
      · simp only [h1, h2, if_false, get?_cons]
        rw [if_neg (fun h => h2 h.symm)]
        exact ih

theorem get?_insert_ne (d : Dictionary α) (k j : String) (v : α) (h : j ≠ k) :
    get? (d.insert k v) j = get? d j := by
  induction d with
  | nil => simp [insert, get?_cons, Ne.symm h]
  | cons e rest ih =>
    obtain ⟨k', v'⟩ := e
    unfold insert
    by_cases h1 : k < k'
    · simp [h1, get?_cons, Ne.symm h]
    · by_cases h2 : k = k'
      · subst h2
        simp [get?_cons, Ne.symm h]
      · simp only [h1, h2, if_false, get?_cons]
        rw [ih]

end Dictionary

end BuildRecipe
