import Mathlib
import Paradigm.Proofs.Trie.StringMap

/-!
# Building string maps

A map is built from any entries with distinct keys, as long as there are addresses for the values,
and a repeated key is the only thing that is refused.  The values are put in the order of the
identifiers, which have no gaps.

## Main results

* `StringMap.ofList_eq_error`, `StringMap.exists_ofList`: which entries make a map
* `StringMap.ofList_answers`: the answers of the map of a list of entries
-/

namespace Paradigm

open Text (Encoding)

namespace StringMap

variable {α : Type} [FixedInt α] {entries : List (String × α)}

omit [FixedInt α] in
/-- The trie of the keys has as many of them as there are different ones. -/
theorem size_ofKeys (entries : List (String × α)) :
    (StringTrie.ofKeys (entries.map Prod.fst)).size = (entries.map Prod.fst).toFinset.card :=
  (StringTrie.stores_ofKeysIn _ _).size_eq_card fun _ => mem_numberedStrings

/-- Entries with a repeated key are refused, with the number of repetitions. -/
theorem ofList_eq_error (h : ¬ (entries.map Prod.fst).Nodup) :
    ofList entries = .error (.corrupt
      (.duplicateKeys (entries.length - (entries.map Prod.fst).toFinset.card))) := by
  have hne : ¬ entries.isEmpty := fun hempty => by
    rw [List.isEmpty_iff.1 hempty] at h
    exact h .nil
  have hcard : (entries.map Prod.fst).toFinset.card ≠ entries.length := by
    intro hcard
    apply h
    rw [← Multiset.coe_nodup, ← Multiset.toFinset_card_eq_card_iff_nodup, List.toFinset_coe,
      Multiset.coe_card, hcard, List.length_map]
  rw [ofList, if_neg hne]
  dsimp only
  rw [size_ofKeys, if_pos hcard]
  rfl

/-- Entries with distinct keys make a map. -/
theorem exists_ofList (h : (entries.map Prod.fst).Nodup)
    (hlength : entries.length * wordBits < addressLimit) : ∃ m, ofList entries = .ok m := by
  rw [ofList]
  split
  · obtain ⟨a, ha⟩ : ∃ a, PackedArray.ofList ([] : List α) = .ok a :=
      PackedArray.exists_ofList (by simp [addressLimit])
    rw [ha]
    exact ⟨_, rfl⟩
  · have hsize : (StringTrie.ofKeys (entries.map Prod.fst)).size = entries.length := by
      rw [size_ofKeys, List.toFinset_card_of_nodup h, List.length_map]
    have hstores : (StringTrie.ofKeys (entries.map Prod.fst)).Stores _ :=
      StringTrie.stores_ofKeysIn _ _
    have hzeros : (numberedStrings (Encoding.selectSmallest (entries.map Prod.fst))
        (entries.map Prod.fst)).length ≤
          (Array.replicate entries.length (FixedInt.ofNat 0 : α)).size := by
      rw [← hstores.size_eq, hsize, Array.size_replicate]
    obtain ⟨arranged, harranged, hlen, -⟩ := exists_arrange hstores h
      (fun e he => mem_numberedStrings.2 (List.mem_map_of_mem he)) hzeros
    obtain ⟨a, ha⟩ : ∃ a, PackedArray.ofList arranged.toList = .ok a :=
      PackedArray.exists_ofList (by simpa [hlen] using hlength)
    dsimp only
    rw [if_neg fun hne => hne hsize, harranged, Except.ok_bind, ha]
    exact ⟨_, rfl⟩

namespace Stores

variable {m : StringMap α} {strings : List String} {values : List α} {s : String} {id : Nat}

/-- The identifiers of keys have no gaps. -/
theorem lt_size_iff (h : m.Stores strings values) :
    id < m.size ↔ ∃ s, m.keyId? s = some id := by
  rw [h.numbering.size_eq]
  constructor
  · intro hid
    exact ⟨_, (h.numbering.find?_eq_some_iff _ id).2 (List.getElem?_eq_getElem hid)⟩
  · rintro ⟨s, hs⟩
    exact (List.getElem?_eq_some_iff.1 ((h.numbering.find?_eq_some_iff s id).1 hs)).1

/-- A key and its value have the same identifier. -/
theorem exists_value (h : m.Stores strings values) (hs : m.keyId? s = some id) :
    ∃ v, (s, v) ∈ strings.zip values ∧ m.key id = .ok s ∧ m.value id = .ok v := by
  have hid := (h.numbering.find?_eq_some_iff s id).1 hs
  have hlt : id < values.length := by
    rw [← h.length_eq]
    exact (List.getElem?_eq_some_iff.1 hid).1
  have hv := List.getElem?_eq_getElem hlt
  exact ⟨_, List.mem_of_getElem? (List.getElem?_zip_eq_some.2 ⟨hid, hv⟩),
    h.numbering.name_of_find? hs, h.value_eq hv⟩

end Stores

/-- **The map of a list of entries.**  A repeated key is what it is refused for, and nothing else
is.  The map has as many keys as there are entries, with identifiers from zero on, and gives the
value of each key by the key and by its identifier; it gives none for other strings, and fails for
other identifiers. -/
theorem ofList_answers (hlength : entries.length < 2 ^ 58) :
    ((∃ cause, ofList entries = .error (.corrupt cause)) ↔ ¬ (entries.map Prod.fst).Nodup) ∧
      ((entries.map Prod.fst).Nodup → ∃ m, ofList entries = .ok m ∧
        (∀ s v, (s, v) ∈ entries → m.find? s = .ok (some v)) ∧
        (∀ s, s ∉ entries.map Prod.fst → m.find? s = .ok none) ∧
        m.size = entries.length ∧
        (∀ s, s ∈ entries.map Prod.fst ↔ ∃ id, m.keyId? s = some id) ∧
        (∀ id, id < m.size ↔ ∃ s, m.keyId? s = some id) ∧
        (∀ s id, m.keyId? s = some id →
          m.key id = .ok s ∧ ∃ v, m.value id = .ok v ∧ m.find? s = .ok (some v)) ∧
        ∀ id, m.size ≤ id → m.key id = .error (.indexOutOfBounds id m.size) ∧
          m.value id = .error (.indexOutOfBounds id m.size)) := by
  have hroom : entries.length * wordBits < addressLimit := by
    rw [wordBits, addressLimit]
    omega
  refine ⟨⟨?_, fun h => ⟨_, ofList_eq_error h⟩⟩, fun hnodup => ?_⟩
  · rintro ⟨cause, hcause⟩ hnodup
    obtain ⟨m, hm⟩ := exists_ofList hnodup hroom
    rw [hm] at hcause
    cases hcause
  obtain ⟨m, hm⟩ := exists_ofList hnodup hroom
  obtain ⟨strings, values, hstores, hperm⟩ := stores_of_ofList hm
  have hkeys : strings.Perm (entries.map Prod.fst) := by
    have hfst := hperm.map Prod.fst
    rwa [List.map_fst_zip hstores.length_eq.le] at hfst
  have hsize : m.size = strings.length := hstores.numbering.size_eq
  refine ⟨m, hm, fun s v hsv => ?_, fun s hs => ?_, ?_, fun s => ?_, fun id => ?_,
    fun s id hs => ?_, fun id hid => ?_⟩
  -- by keys
  · exact hstores.find?_eq (hperm.mem_iff.2 hsv)
  · exact hstores.find?_eq_none fun hmem => hs (hkeys.mem_iff.1 hmem)
  -- keys and their identifiers
  · rw [hsize, hkeys.length_eq, List.length_map]
  · rw [← hkeys.mem_iff, hstores.numbering.mem_iff]
  · exact hstores.lt_size_iff
  -- by identifiers
  · obtain ⟨v, hsv, hkey, hvalue⟩ := hstores.exists_value hs
    exact ⟨hkey, v, hvalue, hstores.find?_eq hsv⟩
  · rw [hsize] at hid ⊢
    exact ⟨hstores.key_eq_error hid, hstores.value_eq_error hid⟩

theorem ofList_answers_cats :
    [("cats", (9 : Int8)), ("", -3), ("cat", 7)].length < 2 ^ 58 ∧
      ([("cats", (9 : Int8)), ("", -3), ("cat", 7)].map Prod.fst).Nodup ∧
      ∃ m, ofList [("cats", (9 : Int8)), ("", -3), ("cat", 7)] = .ok m ∧
        m.find? "" = .ok (some (-3)) ∧ m.find? "ca" = .ok none := by
  have hlength : [("cats", (9 : Int8)), ("", -3), ("cat", 7)].length < 2 ^ 58 := by decide
  have hnodup : ([("cats", (9 : Int8)), ("", -3), ("cat", 7)].map Prod.fst).Nodup := by decide
  obtain ⟨m, hm, hfind, hnone, -⟩ := (ofList_answers hlength).2 hnodup
  exact ⟨hlength, hnodup, m, hm, hfind "" (-3) (by decide), hnone "ca" (by decide)⟩

end StringMap

end Paradigm
