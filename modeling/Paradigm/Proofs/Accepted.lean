import Mathlib
import Paradigm.Proofs.Storage.PackedArray.Extraction
import Paradigm.Proofs.Table.SortedTable.Search
import Paradigm.Proofs.Trie.ByteTrie.Lookup
import Paradigm.Trie.StringMap

/-!
# Answers from whatever is accepted

A reader compares a few numbers and accepts all bytes for which these fit together.  What is
accepted need not have been written by the program, but it is enough for the queries that look up
single values: none of them comes to a number that is out of range, whatever bits the trie has and
whatever order the entries of a table are in.

## Main results

* `StringMap.shape_of_read`: what a stored map is accepted for
* `StringMap.exists_find?`, `StringMap.exists_value`: every query of a stored map is answered
* `PackedArray.exists_get_iff`: the values of an array are those below its length
* `answers_of_read`: maps, arrays and tables that were accepted
-/

namespace Paradigm

/-! ## Arrays -/

/-- An array has values at the indexes below its length. -/
theorem PackedArray.exists_get_iff {α : Type} [FixedInt α] {a : PackedArray α} {i : Nat} :
    (∃ v, a.get i = .ok v) ↔ i < a.length := by
  unfold get
  split_ifs with h
  · exact iff_of_true ⟨_, rfl⟩ h
  · exact iff_of_false nofun h

/-! ## Maps -/

namespace StringMap

variable {α : Type}

/-- What a stored map is accepted for: its trie, if it has one, has the right shape, and there is a
value for each of its keys. -/
structure WellShaped (m : StringMap α) : Prop where
  trie : ∀ t, m.trie = some t → t.trie.wellShaped
  values : m.size ≤ m.values.length

variable {m : StringMap α} {key : String} {id : Nat}

theorem wellShaped_of_read {c c' : Cursor} (h : read α c = .ok m c') : m.WellShaped := by
  obtain ⟨count, c₁, -, h⟩ := Reader.bind_eq_ok.1 h
  obtain ⟨number, c₂, -, h⟩ := Reader.bind_eq_ok.1 h
  obtain ⟨encoding, c₃, -, h⟩ := Reader.bind_eq_ok.1 h
  obtain ⟨_, c₄, -, h⟩ := Reader.bind_eq_ok.1 h
  obtain ⟨values, c₅, -, h⟩ := Reader.bind_eq_ok.1 h
  split at h
  -- without keys there is no trie
  · obtain ⟨rfl, -⟩ := EStateM.Result.ok.inj h
    exact ⟨nofun, Nat.zero_le _⟩
  obtain ⟨trie, c₆, htrie, h⟩ := Reader.bind_eq_ok.1 h
  split at h
  · cases h
  next hsize =>
    obtain ⟨rfl, -⟩ := EStateM.Result.ok.inj h
    have hle : trie.size ≤ values.length := by omega
    refine ⟨?_, hle⟩
    rintro t ⟨⟩
    exact ByteTrie.wellShaped_of_read htrie

/-- The identifier of a key is less than the number of keys. -/
theorem keyId?_lt_size (h : m.keyId? key = some id) : id < m.size := by
  obtain ⟨t, ht, hlookup⟩ := Option.bind_eq_some_iff.1 h
  rw [size, ht]
  exact ByteTrie.lookup_lt_size hlookup

variable [FixedInt α]

/-- The value of a string, with all numbers on the way to it checked. -/
def tryFind? (m : StringMap α) (key : String) : Checked (Except StorageError (Option α)) := do
  match m.trie with
  | none => return .ok none
  | some t =>
    match ← t.trie.tryLookup (t.encoding.encode key) with
    | none => return .ok none
    | some id => return some <$> m.values.tryGet id

/-- No number on the way to a value is out of range. -/
theorem WellShaped.tryFind?_eq (hm : m.WellShaped) (key : String) :
    m.tryFind? key = .ok (m.find? key) := by
  unfold tryFind? find? keyId?
  cases htrie : m.trie with
  | none => rfl
  | some t =>
    rw [Option.bind_eq_bind, Option.bind_some, StringTrie.lookup]
    dsimp only
    rw [ByteTrie.tryLookup_eq (hm.trie t htrie), Except.ok_bind]
    cases t.trie.lookup (t.encoding.encode key) with
    | none => rfl
    | some id =>
      dsimp only
      rw [PackedArray.tryGet_eq]
      rfl

/-- Every string is found or missed. -/
theorem WellShaped.exists_find? (hm : m.WellShaped) (key : String) :
    ∃ v, m.find? key = .ok v := by
  unfold find?
  cases hid : m.keyId? key with
  | none => exact ⟨none, rfl⟩
  | some id =>
    obtain ⟨v, hv⟩ := PackedArray.exists_get_iff.2 ((keyId?_lt_size hid).trans_le hm.values)
    exact ⟨some v, congrArg (Except.map some) hv⟩

/-- Every identifier has a value. -/
theorem WellShaped.exists_value (hm : m.WellShaped) (hid : id < m.size) :
    ∃ v, m.value id = .ok v := by
  rw [value, if_pos hid]
  exact PackedArray.exists_get_iff.2 (hid.trans_le hm.values)

end StringMap

/-! ## All that is accepted -/

/-- **What is accepted answers.**  In a map that was read every string is found or missed, and every
identifier has a value.  An array that was read has values at the indexes below its length, and at
no others.  In a table that was read every entry is a string or is refused for code units that are
not text, every search ends, and what it finds is the string that it looked for.  The answers are
those of queries that check all numbers on their way. -/
theorem answers_of_read {α : Type} [FixedInt α] (c c' : Cursor) :
    (∀ m, StringMap.read α c = .ok m c' →
      (∀ key, ∃ v, m.find? key = .ok v ∧ m.tryFind? key = .ok (.ok v)) ∧
      ∀ id < m.size, ∃ v, m.value id = .ok v ∧ m.values.tryGet id = .ok v) ∧
    (∀ a, PackedArray.read α c = .ok a c' →
      ∀ i, ((∃ v, a.get i = .ok v) ↔ i < a.length) ∧ a.tryGet i = a.get i) ∧
    ∀ t, SortedTable.read c = .ok t c' →
      (∀ id < t.size, (∃ s, t.string id = .ok s) ∨ t.string id = .error .malformedString) ∧
      (∀ s, t.passes (Text.units s) (t.size.size + 1) 0 t.size = .inl (t.identifier? s)) ∧
      ∀ s id, t.identifier? s = some id → t.string id = .ok s := by
  refine ⟨fun m hm => ⟨fun key => ?_, fun id hid => ?_⟩, fun a _ i => ⟨?_, a.tryGet_eq i⟩,
    fun t ht => ⟨fun id hid => ?_, t.passes_eq_identifier?, fun s id hid => ?_⟩⟩
  · have hshape := StringMap.wellShaped_of_read hm
    obtain ⟨v, hv⟩ := hshape.exists_find? key
    exact ⟨v, hv, by rw [hshape.tryFind?_eq, hv]⟩
  · obtain ⟨v, hv⟩ := (StringMap.wellShaped_of_read hm).exists_value hid
    refine ⟨v, hv, ?_⟩
    rw [StringMap.value, if_pos hid] at hv
    rw [PackedArray.tryGet_eq, hv]
  · exact PackedArray.exists_get_iff
  · exact SortedTable.string_cases (SortedTable.overrun?_of_read ht) hid
  · exact (SortedTable.string_of_identifier? hid).2

/-- A stored map of one key, with the value 7, whose trie has two nodes. -/
def oneKey (tree terminal : UInt8) : List UInt8 :=
  [1, 0, 0, 0, 1, 0, 0, 0, 1, 0, 0, 0, 8, 0, 0, 0, 7, 0, 0, 0, 0, 0, 0, 0] ++
    ByteTrie.twoNodes tree terminal

/-- Stored values of 40 bits in two words, so that the second one lies across both. -/
def acrossWords : List UInt8 :=
  [2, 0, 0, 0, 40, 0, 0, 0] ++ (List.range 16).map UInt8.ofNat

/-- A stored table of `b`, `a` and half of a surrogate pair, which are not in order. -/
def notInOrder : List UInt8 :=
  [3, 0, 0, 0, 3, 0, 0, 0, 1, 0, 0, 0, 1, 1, 0, 0, 1, 2, 0, 0] ++
    [0x62, 0, 0x61, 0, 0, 0xD8, 0, 0, 0, 0, 0, 0]

/-- The tree bits 10010 are not those of a tree: the second node is its own parent. -/
theorem answers_of_read_not_in_order :
    (∃ m c', StringMap.read Int32 (.start (View.ofList (oneKey 9 2))) = .ok m c' ∧ m.size = 1 ∧
      (∃ v, m.find? "a" = .ok v) ∧ ∃ v, m.value 0 = .ok v) ∧
    (∃ a c', PackedArray.read Int64 (.start (View.ofList acrossWords)) = .ok a c' ∧
      (∃ v, a.get 1 = .ok v) ∧ ¬ ∃ v, a.get 3 = .ok v) ∧
    ∃ t c', SortedTable.read (.start (View.ofList notInOrder)) = .ok t c' ∧
      ((∃ s, t.string 2 = .ok s) ∨ t.string 2 = .error .malformedString) ∧
      t.identifier? "a" = some 1 ∧ t.string 1 = .ok "a" := by
  obtain ⟨m, c₁, hm, hsize⟩ : ∃ m c', StringMap.read Int32
      (.start (View.ofList (oneKey 9 2))) = .ok m c' ∧ m.size = 1 := ⟨_, _, by cbv, by cbv⟩
  obtain ⟨a, c₂, ha, hlength⟩ : ∃ a c', PackedArray.read Int64
      (.start (View.ofList acrossWords)) = .ok a c' ∧ a.length = 3 := ⟨_, _, by cbv, by cbv⟩
  obtain ⟨t, c₃, ht, hcount, hfound⟩ : ∃ t c', SortedTable.read
      (.start (View.ofList notInOrder)) = .ok t c' ∧ t.size = 3 ∧ t.identifier? "a" = some 1 :=
    ⟨_, _, by cbv, by cbv, by cbv⟩
  obtain ⟨hfind, hvalue⟩ := (answers_of_read _ c₁).1 m hm
  obtain ⟨v, hv, -⟩ := hfind "a"
  obtain ⟨w, hw, -⟩ := hvalue 0 (by omega)
  have hget := (answers_of_read _ c₂).2.1 a ha
  obtain ⟨hstring, -, hstrings⟩ := (@answers_of_read Int32 _ _ c₃).2.2 t ht
  refine ⟨⟨m, c₁, hm, hsize, ⟨v, hv⟩, w, hw⟩, ⟨a, c₂, ha, (hget 1).1.2 (by omega), ?_⟩,
    t, c₃, ht, hstring 2 (by omega), hfound, hstrings "a" 1 hfound⟩
  intro hthird
  have := (hget 3).1.1 hthird
  omega

end Paradigm
