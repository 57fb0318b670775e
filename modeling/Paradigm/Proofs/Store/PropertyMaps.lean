import Mathlib
import Paradigm.Proofs.Storage.PackedArray
import Paradigm.Proofs.Storage.Run
import Paradigm.Proofs.Store.Slots
import Paradigm.Store.Words.Building

/-!
# The answers of property maps

A property map lies in slots: an entry for each property and then all values.  The search for a key
reads the entries in order and stops at the first greater key.  Where the keys are in order, it
finds the values that the map has for the key.

## Main definitions

* `WordStore.MapAt`: a map lies in the slots from a place on

## Main results

* `PropertyMap.slotsOf_of_slots`: the entries and the values in the slots of a map
* `WordStore.findValues_eq_ok`: the search for a key
* `WordStore.MapAt.findValues_eq`: the values of a key in a stored map
-/

namespace Paradigm

/-! ## The slots of a map -/

namespace PropertyMap

/-- The layout of entries fits a slot, and has room for the number of all properties. -/
theorem layoutFor_eq_ok {names : SortedTable} {maps : List PropertyMap} {layout : RecordLayout 3}
    (h : layoutFor names maps = .ok layout) : layout.names = WordStore.mapFields ∧
      (tripleOf layout.widths).2.2 = UInt32.ofNat (WordStore.entryCountWidth names.size) ∧
      RecordLayout.span layout.widths.toList ≤ 32 := by
  obtain ⟨fitting, hfitting, h⟩ := Except.bind_eq_ok.1 h
  obtain ⟨u, hcheck, h⟩ := Except.bind_eq_ok.1 h
  obtain rfl := Except.ok.inj h
  obtain ⟨hnames, hwidths, hwithin⟩ := RecordLayout.fitting_eq_ok
    (liftM_eq_ok.1 hfitting)
  refine ⟨hnames, ?_, span_le_of_checkSlotWidth hwithin hcheck⟩
  rw [hwidths, RecordLayout.tripleOf_map, tripleOf_threeFields]
  rfl

/-- The fields of the entry with a number. -/
def recordAt (m : PropertyMap) (i key : Nat) (ids : List Nat) : Vector UInt64 3 :=
  threeFields (.ofNat key) (.ofNat ids.length) (.ofNat (if i = 0 then m.length else 0))

theorem getElem?_records {m : PropertyMap} {i key : Nat} {ids : List Nat}
    (h : m[i]? = some (key, ids)) : m.records[i]? = some (recordAt m i key ids) := by
  rw [records, List.getElem?_map, List.getElem?_zipIdx, h]
  simp [recordAt]

theorem valueSlot_eq_ok {id : Nat} {slot : Int32} (h : valueSlot id = .ok slot) :
    slot.toUInt32.toNat = id := by
  unfold valueSlot at h
  split at h
  · rename_i hlt
    obtain rfl := Except.ok.inj h
    exact toNat_toUInt32_ofNat (hlt.trans_le (by decide))
  · cases h

/-- The slots of a map are its entries and then all values. -/
structure SlotsOf (layout : RecordLayout 3) (m : PropertyMap) (slots : List Int32) : Prop where
  length_eq : slots.length = m.length + (m.flatMap Prod.snd).length
  entries : ∀ (i key : Nat) ids, m[i]? = some (key, ids) → ∃ slot, slots[i]? = some slot ∧
    layout.decode slot.toUInt32.toUInt64 = .ok (recordAt m i key ids)
  values : ∀ j id : Nat, (m.flatMap Prod.snd)[j]? = some id →
    ∃ slot, slots[m.length + j]? = some slot ∧ slot.toUInt32.toNat = id

theorem slotsOf_of_slots {layout : RecordLayout 3} {m : PropertyMap} {slots : List Int32}
    (hspan : RecordLayout.span layout.widths.toList ≤ 32) (h : m.slots layout = .ok slots) :
    SlotsOf layout m slots := by
  obtain ⟨entries, hentries, h⟩ := Except.bind_eq_ok.1 h
  obtain ⟨values, hvalues, h⟩ := Except.bind_eq_ok.1 h
  obtain rfl := Except.ok.inj h
  have hdecode := decode_of_encodeSlots hspan (liftM_eq_ok.1 hentries)
  have hlength : entries.length = m.length := by
    rw [← hdecode.length_eq, records, List.length_map, List.length_zipIdx]
  constructor
  case length_eq => rw [List.length_append, hlength, length_of_mapM_eq_ok hvalues]
  case entries =>
    intro i key ids hi
    have hlt := (List.getElem?_eq_some_iff.1 hi).1
    obtain ⟨hrecord, hget⟩ := List.getElem?_eq_some_iff.1 (getElem?_records hi)
    have hslot : i < entries.length := hlength ▸ hlt
    refine ⟨entries[i], ?_, ?_⟩
    · rw [List.getElem?_append_left hslot, List.getElem?_eq_getElem hslot]
    · have hdecoded := hdecode.get hrecord hslot
      rwa [List.get_eq_getElem, List.get_eq_getElem, hget] at hdecoded
  case values =>
    -- the values come after all entries
    intro j id hj
    obtain ⟨hlt, rfl⟩ := List.getElem?_eq_some_iff.1 hj
    have hslot : j < values.length := by rwa [length_of_mapM_eq_ok hvalues]
    refine ⟨values[j], ?_, valueSlot_eq_ok (getElem_of_mapM_eq_ok hvalues hlt hslot)⟩
    rw [← hlength, List.getElem?_append_right (Nat.le_add_right _ _), Nat.add_sub_cancel_left,
      List.getElem?_eq_getElem hslot]

theorem SlotsOf.isEmpty_eq {layout : RecordLayout 3} {m : PropertyMap} {slots : List Int32}
    (h : SlotsOf layout m slots) : slots = [] ↔ m = [] := by
  have hlength := h.length_eq
  constructor
  · rintro rfl
    apply List.length_eq_zero_iff.1
    rw [List.length_nil] at hlength
    omega
  · rintro rfl
    exact List.length_eq_zero_iff.1 hlength

end PropertyMap

/-! ## Looking for a key -/

namespace WordStore

/-- The search for a key finds the values under it, where entries and values can be read. -/
theorem findValues_eq_ok {s : WordStore} {m : PropertyMap} (hsorted : m.Pairwise (·.1 < ·.1))
    {index values : Nat}
    (hentry : ∀ (i key : Nat) ids, m[i]? = some (key, ids) →
      ∃ count, s.mapEntry (index + i) = .ok ⟨key, ids.length, count⟩)
    (hvalues : ∀ (i key : Nat) ids, m[i]? = some (key, ids) →
      s.valueIds (values + ((m.map (·.2.length)).take i).sum) ids.length = .ok ids) (key : Nat) :
    s.findValues key index values m.length = .ok (m.lookup key) := by
  induction m generalizing index values with
  | nil => rfl
  | cons e m ih =>
    obtain ⟨k, ids⟩ := e
    obtain ⟨hfirst, hrest⟩ := List.pairwise_cons.1 hsorted
    obtain ⟨count, hmap⟩ := hentry 0 k ids rfl
    have hids : s.valueIds values ids.length = .ok ids := hvalues 0 k ids rfl
    rw [Nat.add_zero] at hmap
    rw [List.length_cons, findValues, hmap, Except.ok_bind]
    by_cases hless : key < k
    · -- all keys of the map are greater
      have hnone : ((k, ids) :: m).lookup key = none := by
        rw [List.lookup_eq_none_iff]
        intro p hp
        have hp : key < p.1 := by
          rcases List.mem_cons.1 hp with rfl | hp
          · exact hless
          · exact hless.trans (hfirst p hp)
        simpa using hp.ne
      rw [if_pos hless, hnone]
      rfl
    rw [if_neg hless]
    by_cases heq : key = k
    · rw [if_pos heq, hids, Except.ok_bind, List.lookup_cons, beq_iff_eq.2 heq]
      rfl
    · -- the search goes on after the entry and after its values
      rw [if_neg heq, List.lookup_cons, beq_eq_false_iff_ne.2 heq]
      apply ih hrest
      · intro i key' ids' hi
        obtain ⟨count', hcount⟩ := hentry (i + 1) key' ids' hi
        refine ⟨count', ?_⟩
        rw [show index + 1 + i = index + (i + 1) by omega, hcount]
      · intro i key' ids' hi
        have hnext := hvalues (i + 1) key' ids' hi
        rw [List.map_cons, List.take_succ_cons, List.sum_cons, ← Nat.add_assoc] at hnext
        exact hnext

/-- A map lies in the slots from a place on. -/
structure MapAt (s : WordStore) (m : PropertyMap) (place : Nat) : Prop where
  sorted : m.Pairwise (·.1 < ·.1)
  keys_lt : ∀ e ∈ m, e.1 < addressLimit
  slots : ∃ slots, PropertyMap.SlotsOf s.mapLayout m slots ∧ slots.length < addressLimit ∧
    ∀ (j : Nat) slot, slots[j]? = some slot → s.propertyMaps.get (place + j) = .ok slot

namespace MapAt

variable {s : WordStore} {m : PropertyMap} {place : Nat}

theorem length_le_flatMap {i key : Nat} {ids : List Nat} (hi : m[i]? = some (key, ids)) :
    ids.length ≤ (m.flatMap Prod.snd).length := by
  rw [List.length_flatMap]
  have hmem : ids.length ∈ m.map fun e => e.2.length :=
    List.mem_map_of_mem (f := fun e : Nat × List Nat => e.2.length) (List.mem_of_getElem? hi)
  exact List.single_le_sum (by simp) _ hmem

/-- The entry of a property. -/
theorem mapEntry_eq_ok (h : s.MapAt m place) {i key : Nat} {ids : List Nat}
    (hi : m[i]? = some (key, ids)) :
    s.mapEntry (place + i) = .ok ⟨key, ids.length, if i = 0 then m.length else 0⟩ := by
  obtain ⟨slots, hslots, hbound, hread⟩ := h.slots
  obtain ⟨slot, hslot, hdecode⟩ := hslots.entries i key ids hi
  have hlength := hslots.length_eq
  have hids := length_le_flatMap hi
  have hkey : key < addressLimit := h.keys_lt (key, ids) (List.mem_of_getElem? hi)
  have hcount : (if i = 0 then m.length else 0) < addressLimit := by
    split
    · omega
    · decide
  rw [mapEntry, hread i slot hslot, Except.ok_bind, hdecode, Except.ok_bind, PropertyMap.recordAt,
    tripleOf_threeFields]
  show Except.ok _ = _
  rw [toNat_ofNat hkey, toNat_ofNat (by omega), toNat_ofNat hcount]

/-- The values of a property. -/
theorem valueIds_eq_ok (h : s.MapAt m place) {i key : Nat} {ids : List Nat}
    (hi : m[i]? = some (key, ids)) :
    s.valueIds (place + m.length + ((m.map (·.2.length)).take i).sum) ids.length = .ok ids := by
  obtain ⟨slots, hslots, -, hread⟩ := h.slots
  have hraws : ∃ raws, valuesFrom s.propertyMaps.get
      (place + m.length + ((m.map (·.2.length)).take i).sum) ids.length = .ok raws ∧
        List.Forall₂ (fun (slot : Int32) id => slot.toUInt32.toNat = id) raws ids := by
    apply exists_valuesFrom
    -- the values of a property come after those of the properties before it
    intro j id hj
    have hget := getElem?_flatMap Prod.snd m hi (List.getElem?_eq_some_iff.1 hj).1
    rw [hj] at hget
    obtain ⟨slot, hslot, hid⟩ := hslots.values _ id hget
    refine ⟨slot, ?_, hid⟩
    rw [← hread _ slot hslot]
    congr 1
    simp only [Nat.add_assoc]
  obtain ⟨raws, hraws, hids⟩ := hraws
  have hmap : raws.map (fun slot => slot.toUInt32.toNat) = ids := by
    rw [← List.forall₂_eq_eq_eq, List.forall₂_map_left_iff]
    exact hids
  rw [valueIds, PackedArray.run, hraws, Except.ok_bind, hmap]
  rfl

/-- The values of a key in a stored map. -/
theorem findValues_eq (h : s.MapAt m place) (key : Nat) :
    s.findValues key place (place + m.length) m.length = .ok (m.lookup key) :=
  findValues_eq_ok h.sorted (fun _ _ _ hi => ⟨_, h.mapEntry_eq_ok hi⟩)
    (fun _ _ _ hi => h.valueIds_eq_ok hi) key

end MapAt

end WordStore

end Paradigm
