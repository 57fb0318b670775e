/-!
# Maps by name

Values under distinct names are kept in the order of the names, so that equal maps are listed
alike.

## Main definitions

* `NameMap`: values under distinct names
* `NameMap.insert`, `NameMap.get?`, `NameMap.names`: entries by name

## Main results

* `NameMap.get?_insert`: an insertion changes the value of its name alone
-/

namespace Paradigm

variable {α : Type}

/-- The entries with the value of one name replaced or added in its place. -/
def insertEntry (name : String) (value : α) : List (String × α) → List (String × α)
  | [] => [(name, value)]
  | (n, v) :: rest =>
    if name < n then (name, value) :: (n, v) :: rest
    else if n < name then (n, v) :: insertEntry name value rest
    else (name, value) :: rest

theorem lt_of_mem_insertEntry {n name : String} {value : α} {es : List (String × α)}
    (hn : n < name) (hes : ∀ e ∈ es, n < e.1) : ∀ e ∈ insertEntry name value es, n < e.1 := by
  induction es with
  | nil =>
    intro e he
    rw [insertEntry, List.mem_singleton] at he
    exact he ▸ hn
  | cons e es ih =>
    obtain ⟨m, v⟩ := e
    have hm : n < m := hes (m, v) (by simp)
    have hrest : ∀ e ∈ es, n < e.1 := fun e he => hes e (by simp [he])
    simp only [insertEntry]
    split
    -- the new entry comes first
    · simp only [List.mem_cons]
      rintro e (rfl | rfl | he)
      · exact hn
      · exact hm
      · exact hrest e he
    · split
      -- the new entry comes later
      · simp only [List.mem_cons]
        rintro e (rfl | he)
        · exact hm
        · exact ih hrest e he
      -- the new entry takes the place of the first
      · simp only [List.mem_cons]
        rintro e (rfl | he)
        · exact hn
        · exact hrest e he

theorem pairwise_insertEntry {name : String} {value : α} {es : List (String × α)}
    (h : es.Pairwise (·.1 < ·.1)) : (insertEntry name value es).Pairwise (·.1 < ·.1) := by
  induction es with
  | nil => simp [insertEntry]
  | cons e es ih =>
    obtain ⟨m, v⟩ := e
    obtain ⟨hm, hes⟩ := List.pairwise_cons.1 h
    simp only [insertEntry]
    split
    · rename_i hlt
      refine List.pairwise_cons.2 ⟨?_, h⟩
      intro e he
      rcases List.mem_cons.1 he with rfl | he
      · exact hlt
      · exact String.lt_trans hlt (hm e he)
    · split
      · rename_i hlt
        exact List.pairwise_cons.2 ⟨lt_of_mem_insertEntry hlt hm, ih hes⟩
      · rename_i hnlt hnlt'
        have heq : name = m := String.le_antisymm (String.not_lt.1 hnlt') (String.not_lt.1 hnlt)
        subst heq
        exact List.pairwise_cons.2 ⟨hm, hes⟩

theorem lookup_entry_cons (n m : String) (v : α) (es : List (String × α)) :
    ((m, v) :: es).lookup n = if n = m then some v else es.lookup n := by
  by_cases h : n = m
  · simp [h]
  · simp [List.lookup_cons, h, beq_eq_false_iff_ne.2 h]

theorem lookup_insertEntry (n name : String) (value : α) (es : List (String × α)) :
    (insertEntry name value es).lookup n = if n = name then some value else es.lookup n := by
  induction es with
  | nil => simp only [insertEntry, lookup_entry_cons]
  | cons e es ih =>
    obtain ⟨m, v⟩ := e
    simp only [insertEntry]
    split
    · simp only [lookup_entry_cons]
    · split
      · rename_i hlt
        have hne : name ≠ m := fun h => String.lt_irrefl name (h ▸ hlt)
        simp only [lookup_entry_cons, ih]
        by_cases h : n = name
        · simp [h, hne]
        · simp [h]
      · rename_i hnlt hnlt'
        have heq : name = m := String.le_antisymm (String.not_lt.1 hnlt') (String.not_lt.1 hnlt)
        subst heq
        simp only [lookup_entry_cons]
        by_cases h : n = name <;> simp [h]

/-- Values under distinct names, in the order of the names. -/
structure NameMap (α : Type) where
  entries : List (String × α)
  sorted : entries.Pairwise (·.1 < ·.1)
  deriving DecidableEq

namespace NameMap

/-- No entries. -/
def empty : NameMap α := ⟨[], .nil⟩

/-- Gives a name its value, in place of the one that it had. -/
def insert (m : NameMap α) (name : String) (value : α) : NameMap α :=
  ⟨insertEntry name value m.entries, pairwise_insertEntry m.sorted⟩

/-- The value of a name. -/
def get? (m : NameMap α) (name : String) : Option α := m.entries.lookup name

/-- The names, in order. -/
def names (m : NameMap α) : List String := m.entries.map Prod.fst

theorem get?_insert (m : NameMap α) (n name : String) (value : α) :
    (m.insert name value).get? n = if n = name then some value else m.get? n :=
  lookup_insertEntry n name value m.entries

end NameMap

end Paradigm
