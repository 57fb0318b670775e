import Mathlib
import Paradigm.Proofs.Table.SortedTable

/-!
# Searches in stored tables

A stored table is accepted if every entry ends within the code units.  All entries can then be read,
but the code units of an entry need not be text, and the entries need not be in order.  A search
halves the run of entries at every pass, whatever they are, so that it ends after as many passes as
the number of entries has digits, and one more; what it finds is the string that it looked for.

## Main definitions

* `SortedTable.probe`: one pass of a search
* `SortedTable.passes`: some passes of a search

## Main results

* `SortedTable.exists_unitsAt`, `SortedTable.string_cases`: all entries of a stored table can be read
* `SortedTable.probe_cases`, `SortedTable.passes_eq_search`: one pass, and a whole search
* `SortedTable.string_of_identifier?`: what is found is the string
-/

namespace Paradigm

namespace SortedTable

variable {t : SortedTable} {id : Nat}

/-! ## Entries of stored tables -/

theorem overrun?_of_read {c c' : Cursor} (h : read c = .ok t c') : t.overrun? = none := by
  obtain ⟨count, c₁, -, h⟩ := Reader.bind_eq_ok.1 h
  obtain ⟨unitCount, c₂, -, h⟩ := Reader.bind_eq_ok.1 h
  obtain ⟨entries, c₃, -, h⟩ := Reader.bind_eq_ok.1 h
  obtain ⟨units, c₄, -, h⟩ := Reader.bind_eq_ok.1 h
  obtain ⟨_, c₅, -, h⟩ := Reader.bind_eq_ok.1 h
  cases hoverrun : overrun? ⟨entries, units⟩ with
  | none =>
    simp only [hoverrun] at h
    obtain ⟨rfl, -⟩ := EStateM.Result.ok.inj h
    exact hoverrun
  | some e =>
    simp only [hoverrun] at h
    cases h

/-- The code units of every entry can be read. -/
theorem exists_unitsAt (h : t.overrun? = none) (hid : id < t.size) :
    ∃ us, t.unitsAt id = .ok us := by
  have hlt : id < t.entries.toList.length := hid.trans_eq t.entries.length_toList.symm
  have hentry : t.entries.get id = .ok t.entries.toList[id] :=
    PlainArray.get_eq_ok (List.getElem?_eq_getElem hlt)
  have hend := List.find?_eq_none.1 h t.entries.toList[id] (List.getElem_mem hlt)
  rw [decide_eq_true_iff, Nat.not_lt] at hend
  rw [unitsAt, hentry, Except.ok_bind, PlainArray.range_eq, if_pos ⟨Nat.le_add_right _ _, hend⟩]
  exact ⟨_, rfl⟩

/-- An entry has a string, or code units that are not text. -/
theorem string_cases (h : t.overrun? = none) (hid : id < t.size) :
    (∃ s, t.string id = .ok s) ∨ t.string id = .error .malformedString := by
  obtain ⟨us, hus⟩ := exists_unitsAt h hid
  rw [string, hus, Except.ok_bind]
  cases Text.Units.decode? us with
  | some cs => exact .inl ⟨_, rfl⟩
  | none => exact .inr rfl

/-! ## Passes of a search -/

/-- One pass of a search among the entries from `low` on, up to `high`: the outcome of the search,
or the run of entries that is left. -/
def probe (t : SortedTable) (needle : List Nat) (low high : Nat) : Option Nat ⊕ Nat × Nat :=
  if low < high then
    let mid := low + (high - low) / 2
    match t.unitsAt mid with
    | .error _ => .inl none
    | .ok candidate =>
      if needle = candidate then .inl (some mid)
      else if needle < candidate then .inr (low, mid)
      else .inr (mid + 1, high)
  else .inl none

/-- A number of passes of a search: the outcome of the search, or the run of entries that is
left. -/
def passes (t : SortedTable) (needle : List Nat) : Nat → Nat → Nat → Option Nat ⊕ Nat × Nat
  | 0, low, high => .inr (low, high)
  | n + 1, low, high =>
    match t.probe needle low high with
    | .inl outcome => .inl outcome
    | .inr (low, high) => passes t needle n low high

/-- **One pass** ends the search, or it leaves at most half of the run, in which the search goes on.
Among the entries of a stored table a string is missed only when no entry is left. -/
theorem probe_cases (t : SortedTable) (needle : List Nat) (low high : Nat) :
    (∃ outcome, t.probe needle low high = .inl outcome ∧
        t.search needle low high = outcome ∧
        (t.overrun? = none → high ≤ t.size → outcome = none → high ≤ low)) ∨
      ∃ low' high', t.probe needle low high = .inr (low', high') ∧ low < high ∧ low ≤ low' ∧
        high' ≤ high ∧ high' - low' ≤ (high - low) / 2 ∧
        t.search needle low high = t.search needle low' high' := by
  rw [probe, search]
  by_cases hlt : low < high
  · rw [if_pos hlt, if_pos hlt]
    dsimp only
    cases hunits : t.unitsAt (low + (high - low) / 2) with
    | error e =>
      refine .inl ⟨none, rfl, rfl, fun hread hhigh _ => ?_⟩
      have hmid : low + (high - low) / 2 < t.size := by omega
      obtain ⟨us, hus⟩ := exists_unitsAt hread hmid
      rw [hus] at hunits
      cases hunits
    | ok candidate =>
      dsimp only
      split_ifs with heq hless
      · exact .inl ⟨_, rfl, rfl, fun _ _ hnone => by cases hnone⟩
      · exact .inr ⟨_, _, rfl, hlt, le_rfl, by omega, by omega, rfl⟩
      · exact .inr ⟨_, _, rfl, hlt, by omega, le_rfl, by omega, rfl⟩
  · rw [if_neg hlt, if_neg hlt]
    exact .inl ⟨none, rfl, rfl, fun _ _ _ => Nat.le_of_not_lt hlt⟩

/-- **A search ends** after one pass more than its run can be halved. -/
theorem passes_eq_search (t : SortedTable) (needle : List Nat) {n low high : Nat}
    (h : high - low < 2 ^ n) :
    t.passes needle (n + 1) low high = .inl (t.search needle low high) := by
  -- the run is halved at every pass
  induction n generalizing low high with
  | zero =>
    rw [passes]
    obtain ⟨outcome, hprobe, hsearch, -⟩ | ⟨low', high', -, hlt, -⟩ :=
      t.probe_cases needle low high
    · rw [hprobe, hsearch]
    · rw [Nat.pow_zero] at h
      omega
  | succ n ih =>
    rw [passes]
    obtain ⟨outcome, hprobe, hsearch, -⟩ | ⟨low', high', hprobe, -, -, -, hhalf, hsearch⟩ :=
      t.probe_cases needle low high
    · rw [hprobe, hsearch]
    · rw [Nat.pow_succ] at h
      rw [hprobe, hsearch]
      exact ih (by omega)

/-- The search for a string ends. -/
theorem passes_eq_identifier? (t : SortedTable) (s : String) :
    t.passes (Text.units s) (t.size.size + 1) 0 t.size = .inl (t.identifier? s) :=
  t.passes_eq_search _ (Nat.lt_size_self t.size)

/-- What is found is the string, whatever the order of the entries is. -/
theorem string_of_identifier? {s : String} (h : t.identifier? s = some id) :
    id < t.size ∧ t.string id = .ok s := by
  obtain ⟨-, hid, hunits⟩ := unitsAt_of_search h
  exact ⟨hid, string_of_unitsAt hunits⟩

end SortedTable

end Paradigm
