import Mathlib
import Paradigm.Proofs.Sorting
import Paradigm.Proofs.Storage.PlainArray
import Paradigm.Proofs.Table.Strings
import Paradigm.Proofs.Text.Units
import Paradigm.Table.SortedTable

/-!
# The answers of sorted tables

A sorted table numbers its strings in the order of their code units.  The entry of a string leads to
its code units, and binary search finds the entry of a string.

## Main definitions

* `SortedTable.Stores`: the entries of a table lead to given code units
* `sortedStrings`: the distinct strings of a list, in the order of their code units

## Main results

* `SortedTable.Stores.identifier?_eq_some_iff`: binary search finds the place of a string
* `SortedTable.stores_of_ofList`: a table numbers its strings in the order of code units
* `SortedTable.readsBack_write`: the stored form is read back
-/

namespace Paradigm

open Text (units units_inj)

/-! ## Distinct strings -/

/-- The distinct strings of a list, in the order of their code units. -/
def sortedStrings (strings : List String) : List String :=
  (strings.mergeSort fun s t => !decide (units t < units s)).eraseReps

theorem mem_sortedStrings {s : String} {strings : List String} :
    s ∈ sortedStrings strings ↔ s ∈ strings :=
  mem_eraseReps_mergeSort

theorem pairwise_sortedStrings (strings : List String) :
    (sortedStrings strings).Pairwise fun s t => units s < units t := by
  have h : (sortedStrings strings).Pairwise fun s t => !decide (units t < units s) ∧ s ≠ t :=
    pairwise_eraseReps_mergeSort ?_ ?_ ?_ strings
  · refine h.imp ?_
    rintro s t ⟨hst, hne⟩
    have hle : units s ≤ units t := by simpa using hst
    exact lt_of_le_of_ne hle fun heq => hne (units_inj.1 heq)
  · intro r s t hrs hst
    simp only [Bool.not_eq_true', decide_eq_false_iff_not, not_lt] at *
    exact hrs.trans hst
  · intro s t
    simp only [Bool.or_eq_true, Bool.not_eq_true', decide_eq_false_iff_not, not_lt]
    exact le_total _ _
  · intro s t hst hts
    simp only [Bool.not_eq_true', decide_eq_false_iff_not, not_lt] at *
    exact units_inj.1 (le_antisymm hst hts)

namespace SortedTable

theorem distinctUnits_eq (strings : List String) :
    distinctUnits strings = (sortedStrings strings).map Text.units := by
  rw [distinctUnits, sortedStrings, map_eraseReps Text.units_injective]
  congr 1
  refine (List.map_mergeSort ?_).symm
  intro s _ t _
  rfl

/-! ## Entries -/

theorem offsetOf_entry {offset length : Nat} (hlength : length ≤ maxLength)
    (hoffset : offset ≤ maxOffset) : offsetOf (entry offset length) = offset := by
  unfold maxLength maxOffset at *
  rw [offsetOf, entry, UInt32.toNat_ofNat_of_lt' (by simp only [UInt32.size]; omega)]
  omega

theorem lengthOf_entry {offset length : Nat} (hlength : length ≤ maxLength)
    (hoffset : offset ≤ maxOffset) : lengthOf (entry offset length) = length := by
  unfold maxLength maxOffset at *
  rw [lengthOf, entry, UInt32.toNat_ofNat_of_lt' (by simp only [UInt32.size]; omega)]
  omega

/-- The code units of strings one after the other, each closed by a zero. -/
def storedUnits (us : List (List Nat)) : List UInt16 :=
  us.flatMap fun u => u.map UInt16.ofNat ++ [0]

/-- An entry leads to code units within a list. -/
def LeadsTo (all : List UInt16) (e : UInt32) (u : List Nat) : Prop :=
  (all.drop (offsetOf e)).take (lengthOf e) = u.map UInt16.ofNat ∧
    offsetOf e + lengthOf e ≤ all.length

/-- The entries of strings lead to their code units. -/
theorem leadsTo_of_entriesFrom {before : List UInt16} {us : List (List Nat)} {es : List UInt32}
    (h : entriesFrom before.length us = .ok es) :
    List.Forall₂ (LeadsTo (before ++ storedUnits us)) es us := by
  induction us generalizing before es with
  | nil =>
    obtain rfl := Except.ok.inj h
    exact .nil
  | cons u us ih =>
    rw [entriesFrom] at h
    split at h
    · cases h
    · rename_i hlength
      split at h
      · cases h
      · rename_i hoffset
        obtain ⟨rest, hrest, h⟩ := Except.bind_eq_ok.1 h
        obtain rfl := Except.ok.inj h
        -- the units of the first string go to the part before the rest
        have hall : before ++ storedUnits (u :: us) =
            (before ++ (u.map UInt16.ofNat ++ [0])) ++ storedUnits us := by
          simp [storedUnits]
        have hnext : before.length + u.length + 1 =
            (before ++ (u.map UInt16.ofNat ++ [0])).length := by
          simp [Nat.add_assoc]
        rw [hnext] at hrest
        rw [hall]
        refine .cons ?_ (ih hrest)
        rw [LeadsTo, offsetOf_entry (by omega) (by omega), lengthOf_entry (by omega) (by omega)]
        constructor
        · rw [List.append_assoc, List.drop_left, List.append_assoc]
          exact List.take_left' (by simp)
        · simp

/-- A table has no more strings than there are places for them. -/
theorem length_le_of_entriesFrom {offset : Nat} {us : List (List Nat)} {es : List UInt32}
    (h : entriesFrom offset us = .ok es) (hne : us ≠ []) : offset + us.length ≤ maxOffset + 1 := by
  induction us generalizing offset es with
  | nil => exact absurd rfl hne
  | cons u us ih =>
    rw [entriesFrom] at h
    split at h
    · cases h
    split at h
    · cases h
    · rename_i hoffset
      obtain ⟨rest, hrest, -⟩ := Except.bind_eq_ok.1 h
      rw [List.length_cons]
      by_cases hnil : us = []
      · rw [hnil, List.length_nil]
        omega
      · have := ih hrest hnil
        omega

theorem length_sortedStrings_le {strings : List String} {t : SortedTable}
    (h : ofList strings = .ok t) : (sortedStrings strings).length ≤ maxOffset + 1 := by
  obtain ⟨es, hes, -⟩ := Except.bind_eq_ok.1 h
  rw [distinctUnits_eq] at hes
  by_cases hnil : sortedStrings strings = []
  · rw [hnil]
    exact Nat.zero_le _
  · have hle := length_le_of_entriesFrom hes (by simpa using hnil)
    rw [List.length_map] at hle
    omega

/-! ## Strings by their identifiers -/

theorem map_toNat_map_ofNat {us : List Nat} (h : ∀ u ∈ us, u < 65536) :
    (us.map UInt16.ofNat).map UInt16.toNat = us := by
  rw [List.map_map]
  conv_rhs => rw [← List.map_id us]
  apply List.map_congr_left
  intro u hu
  exact UInt16.toNat_ofNat_of_lt' (h u hu)

/-- What is found by halving a run lies in the run and has the code units, whatever the order of the
entries is. -/
theorem unitsAt_of_search {t : SortedTable} {needle : List Nat} {low high id : Nat}
    (h : t.search needle low high = some id) :
    low ≤ id ∧ id < high ∧ t.unitsAt id = .ok needle := by
  fun_induction search t needle low high with
  | case1 low high hlt mid e hunits =>
    cases h
  | case2 low high hlt mid hunits =>
    obtain rfl := Option.some.inj h
    exact ⟨Nat.le_add_right _ _, by omega, hunits⟩
  | case3 low high hlt mid candidate hunits hne hless ih =>
    have hmid : mid = low + (high - low) / 2 := rfl
    obtain ⟨hlow, hid, hfound⟩ := ih h
    exact ⟨hlow, by omega, hfound⟩
  | case4 low high hlt mid candidate hunits hne hless ih =>
    have hmid : mid = low + (high - low) / 2 := rfl
    obtain ⟨hlow, hid, hfound⟩ := ih h
    exact ⟨by omega, hid, hfound⟩
  | case5 low high hge =>
    cases h

theorem string_of_unitsAt {t : SortedTable} {id : Nat} {s : String}
    (h : t.unitsAt id = .ok (Text.units s)) : t.string id = .ok s := by
  rw [string, h, Except.ok_bind, Text.Units.decode?_units]
  exact congrArg Except.ok String.ofList_toList

/-- The entries of a table lead to the code units of given strings. -/
structure Stores (t : SortedTable) (strings : List String) : Prop where
  entries : List.Forall₂ (fun e s => LeadsTo t.units.toList e (Text.units s)) t.entries.toList
    strings
  sorted : strings.Pairwise fun s t => Text.units s < Text.units t

/-- The table of a list stores its strings in the order of their code units. -/
theorem stores_of_ofList {strings : List String} {t : SortedTable} (h : ofList strings = .ok t) :
    t.Stores (sortedStrings strings) := by
  obtain ⟨es, hes, h⟩ := Except.bind_eq_ok.1 h
  obtain rfl := Except.ok.inj h
  refine ⟨?_, pairwise_sortedStrings strings⟩
  have hes' : entriesFrom ([] : List UInt16).length (distinctUnits strings) = .ok es := hes
  have hlead := leadsTo_of_entriesFrom hes'
  rw [List.nil_append, distinctUnits_eq, List.forall₂_map_right_iff] at hlead
  rw [distinctUnits_eq]
  exact hlead

namespace Stores

variable {t : SortedTable} {strings : List String} {s : String} {id : Nat}

theorem size_eq (h : t.Stores strings) : t.size = strings.length := by
  rw [size, ← PlainArray.length_toList]
  exact h.entries.length_eq

theorem nodup (h : t.Stores strings) : strings.Nodup :=
  Pairwise.nodup_of_irrefl (fun s => lt_irrefl (Text.units s)) h.sorted

theorem unitsAt_eq_ok (h : t.Stores strings) (hid : strings[id]? = some s) :
    t.unitsAt id = .ok (Text.units s) := by
  obtain ⟨hlt, rfl⟩ := List.getElem?_eq_some_iff.1 hid
  have hentry : id < t.entries.toList.length := h.entries.length_eq ▸ hlt
  obtain ⟨hlead, hend⟩ : LeadsTo t.units.toList t.entries.toList[id] (Text.units strings[id]) :=
    h.entries.get hentry hlt
  rw [PlainArray.length_toList] at hend
  have hget : t.entries.get id = .ok t.entries.toList[id] :=
    PlainArray.get_eq_ok (List.getElem?_eq_getElem hentry)
  have hrange : t.units.range (offsetOf t.entries.toList[id])
      (offsetOf t.entries.toList[id] + lengthOf t.entries.toList[id]) =
        .ok ((Text.units strings[id]).map UInt16.ofNat) := by
    rw [PlainArray.range_eq, if_pos ⟨Nat.le_add_right _ _, hend⟩, List.drop_take,
      Nat.add_sub_cancel_left, hlead]
  have hunits := map_toNat_map_ofNat fun u hu => Text.lt_of_mem_units (s := strings[id]) hu
  rw [unitsAt, hget, Except.ok_bind, hrange, Except.ok_bind, hunits]
  rfl

/-- An identifier leads back to its string. -/
theorem string_eq_ok (h : t.Stores strings) (hid : strings[id]? = some s) :
    t.string id = .ok s :=
  string_of_unitsAt (h.unitsAt_eq_ok hid)

/-! ## Binary search -/

theorem units_lt (h : t.Stores strings) {i j : Nat} {a b : String} (ha : strings[i]? = some a)
    (hb : strings[j]? = some b) (hij : i < j) : Text.units a < Text.units b := by
  obtain ⟨hi, rfl⟩ := List.getElem?_eq_some_iff.1 ha
  obtain ⟨hj, rfl⟩ := List.getElem?_eq_some_iff.1 hb
  exact List.pairwise_iff_getElem.1 h.sorted i j hi hj hij

theorem mid_lt {low high : Nat} (hhigh : high ≤ strings.length) (hlt : low < high) :
    low + (high - low) / 2 < strings.length := by
  omega

/-- What is read in the table are the code units of a string of it. -/
theorem exists_of_unitsAt (h : t.Stores strings) {u : List Nat} (hid : id < strings.length)
    (hunits : t.unitsAt id = .ok u) : ∃ r, strings[id]? = some r ∧ u = Text.units r := by
  have hget := List.getElem?_eq_getElem hid
  rw [h.unitsAt_eq_ok hget] at hunits
  exact ⟨_, hget, (Except.ok.inj hunits).symm⟩

/-- What is found is the string. -/
theorem of_search (h : t.Stores strings) {low high : Nat} (hhigh : high ≤ strings.length)
    (hfound : t.search (Text.units s) low high = some id) : strings[id]? = some s := by
  obtain ⟨-, hlt, hunits⟩ := unitsAt_of_search hfound
  obtain ⟨r, hget, hr⟩ := h.exists_of_unitsAt (hlt.trans_le hhigh) hunits
  rw [hget, units_inj.1 hr]

/-- A string that is in the run is found. -/
theorem search_eq (h : t.Stores strings) {low high : Nat} (hhigh : high ≤ strings.length)
    (hid : strings[id]? = some s) (hlow : low ≤ id) (hbelow : id < high) :
    t.search (Text.units s) low high = some id := by
  fun_induction search t (Text.units s) low high with
  | case1 low high hlt mid e hunits =>
    -- the entries of the run can be read
    have hget := List.getElem?_eq_getElem (mid_lt hhigh hlt)
    rw [h.unitsAt_eq_ok hget] at hunits
    cases hunits
  | case2 low high hlt mid hunits =>
    obtain ⟨r, hget, hr⟩ := h.exists_of_unitsAt (mid_lt hhigh hlt) hunits
    obtain rfl := units_inj.1 hr
    obtain ⟨hidlt, -⟩ := List.getElem?_eq_some_iff.1 hid
    rw [(List.getElem?_inj hidlt h.nodup).1 (hid.trans hget.symm)]
  | case3 low high hlt mid candidate hunits hne hless ih =>
    -- the string is smaller than the one in the middle, so its place is before the middle
    have hmid := mid_lt hhigh hlt
    obtain ⟨r, hget, rfl⟩ := h.exists_of_unitsAt hmid hunits
    apply ih hmid.le hlow
    by_contra hge
    rcases Nat.eq_or_lt_of_le (Nat.le_of_not_lt hge) with rfl | hlt
    · rw [hget] at hid
      rw [Option.some.inj hid] at hless
      exact lt_irrefl _ hless
    · exact lt_asymm hless (h.units_lt hget hid hlt)
  | case4 low high hlt mid candidate hunits hne hless ih =>
    -- the string is greater than the one in the middle, so its place is after the middle
    obtain ⟨r, hget, rfl⟩ := h.exists_of_unitsAt (mid_lt hhigh hlt) hunits
    refine ih hhigh ?_ hbelow
    by_contra hle
    rcases Nat.eq_or_lt_of_le (Nat.le_of_lt_succ (Nat.lt_of_not_le hle)) with rfl | hlt
    · rw [hget] at hid
      exact hne (by rw [Option.some.inj hid])
    · exact hless (h.units_lt hid hget hlt)
  | case5 low high hge =>
    omega

/-- The identifier of a string is its place. -/
theorem identifier?_eq_some_iff (h : t.Stores strings) :
    t.identifier? s = some id ↔ strings[id]? = some s := by
  rw [identifier?, h.size_eq]
  constructor
  · exact h.of_search le_rfl
  · intro hid
    exact h.search_eq le_rfl hid (Nat.zero_le id) (List.getElem?_eq_some_iff.1 hid).1

theorem numbers (h : t.Stores strings) : StringTable.Numbers t strings where
  nodup := h.nodup
  size_eq := h.size_eq
  find?_eq_some_iff := fun _ _ => h.identifier?_eq_some_iff
  name_eq_ok := fun _ _ => h.string_eq_ok

/-- The identifier of a string is the number of those with smaller code units. -/
theorem identifier?_eq_countP (h : t.Stores strings) (hs : s ∈ strings) :
    t.identifier? s = some (strings.countP fun r => Text.units r < Text.units s) := by
  obtain ⟨id, hid⟩ := List.mem_iff_getElem?.1 hs
  have hcount := countP_of_getElem? (fun r q hrq hqr => lt_asymm hrq hqr) h.sorted hid
  rw [hcount, h.identifier?_eq_some_iff]
  exact hid

end Stores

/-! ## The stored form -/

/-- A table as it is read from a file. -/
def mappedForm (t : SortedTable) : SortedTable := ⟨t.entries.mappedForm, t.units.mappedForm⟩

theorem Stores.mappedForm {t : SortedTable} {strings : List String} (h : t.Stores strings) :
    t.mappedForm.Stores strings := by
  refine ⟨?_, h.sorted⟩
  simp only [SortedTable.mappedForm, PlainArray.toList_mappedForm]
  exact h.entries

@[simp] theorem size_mappedForm (t : SortedTable) : t.mappedForm.size = t.size :=
  t.entries.size_mappedForm

@[simp] theorem string_mappedForm (t : SortedTable) (id : Nat) :
    t.mappedForm.string id = t.string id := by
  simp only [string, unitsAt, mappedForm, PlainArray.get_mappedForm, PlainArray.range_mappedForm]

theorem strings_mappedForm (t : SortedTable) : t.mappedForm.strings = t.strings := by
  rw [strings, strings, size_mappedForm, funext t.string_mappedForm]

theorem write_mappedForm (t : SortedTable) (out : Writer) : t.mappedForm.write out = t.write out := by
  simp only [write, mappedForm, PlainArray.size_mappedForm, PlainArray.putArray_mappedForm]

/-- A table answers in a file as it does in memory. -/
theorem Stores.sameAnswers_mappedForm {t : SortedTable} {strings : List String}
    (h : t.Stores strings) : StringTable.SameAnswers t t.mappedForm where
  size_eq := t.size_mappedForm
  identifier?_eq := fun _ => Option.ext fun _ =>
    h.mappedForm.identifier?_eq_some_iff.trans h.identifier?_eq_some_iff.symm
  string_eq := t.string_mappedForm

theorem Stores.overrun?_eq_none {t : SortedTable} {strings : List String} (h : t.Stores strings) :
    t.overrun? = none := by
  rw [overrun?, List.find?_eq_none]
  intro e he
  obtain ⟨i, hi, rfl⟩ := List.mem_iff_getElem.1 he
  have hlead := h.entries.get hi (h.entries.length_eq ▸ hi)
  have hfits : ¬ t.units.size < offsetOf t.entries.toList[i] + lengthOf t.entries.toList[i] :=
    Nat.not_lt.2 (t.units.length_toList ▸ hlead.2)
  simpa using hfits

/-- A stored table is read back. -/
theorem readsBack_write {t : SortedTable} {strings : List String} (ht : t.Stores strings)
    {out out' : Writer} (h : t.write out = .ok out') : ReadsBack out out' read t.mappedForm := by
  obtain ⟨o₁, h₁, h⟩ := Except.bind_eq_ok.1 h
  obtain ⟨o₂, h₂, h⟩ := Except.bind_eq_ok.1 h
  obtain rfl := Except.ok.inj h
  apply (readsBack_putCount h₁).bind
  apply (readsBack_putCount h₂).bind
  apply (readsBack_putArray o₂ t.entries).bind
  apply (readsBack_putArray (o₂.putArray t.entries) t.units).bind
  apply (readsBack_padTo _ sectionAlignment).bind
  have hfits : t.mappedForm.overrun? = none := ht.mappedForm.overrun?_eq_none
  have hbuilt : (⟨t.entries.mappedForm, t.units.mappedForm⟩ : SortedTable) = t.mappedForm := rfl
  simp only [hbuilt, hfits]
  exact ReadsBack.pure _ _

theorem local_read : Reader.Local read := by
  apply Reader.local_readCount.bind
  intro count
  apply Reader.local_readCount.bind
  intro unitCount
  apply (Reader.local_readPlainArray UInt32 count).bind
  intro entries
  apply (Reader.local_readPlainArray UInt16 unitCount).bind
  intro units
  apply (Reader.local_skipPadding sectionAlignment).bind
  intro _
  dsimp only
  split
  · exact Reader.local_pure _
  · exact Reader.local_throw _

end SortedTable

end Paradigm
