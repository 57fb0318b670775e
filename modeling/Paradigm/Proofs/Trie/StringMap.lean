import Mathlib
import Paradigm.Proofs.Storage.PackedArray
import Paradigm.Proofs.Trie.StringTrie
import Paradigm.Trie.StringMap

/-!
# The answers of string maps

A map that was built answers with the value of each key, and so does the map that is read back.

## Main definitions

* `StringMap.Stores`: a map stands for keys and values in the order of their numbers
* `StringMap.mappedForm`: a map as it is read from a file
* `StringMap.SameAnswers`: two maps answer alike

## Main results

* `StringMap.stores_of_ofList`: the map of a list of entries
* `StringMap.Stores.find?_eq`, `StringMap.Stores.find?_eq_none`: the values of keys
* `StringMap.readsBack_write`: the stored form is read back
-/

namespace Paradigm

open Text (Encoding)

namespace StringMap

variable {α : Type}

/-! ## Values under the numbers of their keys -/

section Arrange

variable {t : StringTrie} {entries : List (String × α)} {values : Array α}

theorem arrange_cons {k : String} {id : Nat} (v : α) (hk : t.lookup k = some id)
    (hid : id < values.size) :
    arrange t values ((k, v) :: entries) = arrange t (values.setIfInBounds id v) entries := by
  rw [arrange, hk]
  show (liftM (Checked.replace values id v) >>= _) = _
  rw [Checked.replace_eq_ok hid, Checked.liftM_ok, Except.ok_bind]

theorem size_of_arrange {arranged : Array α} (h : arrange t values entries = .ok arranged) :
    arranged.size = values.size := by
  induction entries generalizing values with
  | nil => rw [Except.ok.inj h]
  | cons e entries ih =>
    obtain ⟨k, v⟩ := e
    rw [arrange] at h
    split at h
    · obtain ⟨replaced, hreplaced, h⟩ := Except.bind_eq_ok.1 h
      rw [Checked.liftM_eq_ok, Checked.replace] at hreplaced
      split at hreplaced
      · obtain rfl := Except.ok.inj hreplaced
        rw [ih h, Array.size_setIfInBounds]
      · cases hreplaced
    · cases h

/-- Keys of a trie with a place for each of them are all found, and each number gets the value of
its key.  A number that belongs to no entry keeps its value. -/
theorem exists_arrange {strings : List String} (ht : t.Stores strings)
    (hnodup : (entries.map Prod.fst).Nodup) (hkeys : ∀ e ∈ entries, e.1 ∈ strings)
    (hsize : strings.length ≤ values.size) :
    ∃ arranged, arrange t values entries = .ok arranged ∧ arranged.size = values.size ∧
      (∀ id, (∀ e ∈ entries, t.lookup e.1 ≠ some id) → arranged[id]? = values[id]?) ∧
      ∀ (k : String) (v : α) (id : Nat), (k, v) ∈ entries → strings[id]? = some k →
        arranged[id]? = some v := by
  induction entries generalizing values with
  | nil => exact ⟨values, rfl, rfl, fun _ _ => rfl, nofun⟩
  | cons e entries ih =>
    obtain ⟨k, v⟩ := e
    obtain ⟨hnotin, hrest⟩ := List.nodup_cons.1 hnodup
    obtain ⟨id, hid⟩ := List.mem_iff_getElem?.1 (hkeys (k, v) List.mem_cons_self)
    have hlookup : t.lookup k = some id := ht.lookup_eq_some_iff.2 hid
    have hlt : id < values.size := (List.getElem?_eq_some_iff.1 hid).1.trans_le hsize
    obtain ⟨arranged, harranged, hlength, hkept, hput⟩ :=
      @ih (values.setIfInBounds id v) hrest (fun e he => hkeys e (List.mem_cons_of_mem _ he))
        (by simpa using hsize)
    refine ⟨arranged, by rw [arrange_cons v hlookup hlt, harranged], by simpa using hlength,
      fun other hother => ?_, fun k' v' id' hmem hid' => ?_⟩
    · have hne : id ≠ other := by
        rintro rfl
        exact hother (k, v) List.mem_cons_self hlookup
      rw [hkept other fun e he => hother e (List.mem_cons_of_mem _ he),
        Array.getElem?_setIfInBounds_ne hne]
    · rcases List.mem_cons.1 hmem with heq | hmem
      · obtain ⟨rfl, rfl⟩ := Prod.mk.inj heq
        obtain rfl : id = id' :=
          Option.some.inj (hlookup.symm.trans (ht.lookup_eq_some_iff.2 hid'))
        -- no later entry has the key again
        have hlater : ∀ e ∈ entries, t.lookup e.1 ≠ some id := by
          intro e he heq
          rw [ht.lookup_eq_some_iff, hid] at heq
          exact hnotin (List.mem_map.2 ⟨e, he, (Option.some.inj heq).symm⟩)
        rw [hkept id hlater, Array.getElem?_setIfInBounds_self_of_lt hlt]
      · exact hput k' v' id' hmem hid'

end Arrange

/-! ## Keys and values -/

variable [FixedInt α]

omit [FixedInt α] in
/-- Keys with the values at their numbers are the entries in another order. -/
theorem perm_zip_of_getElem? {strings : List String} {values : List α}
    {entries : List (String × α)} (hstrings : strings.Nodup)
    (hnodup : (entries.map Prod.fst).Nodup) (hlength : strings.length ≤ values.length)
    (hmem : ∀ s, s ∈ strings ↔ s ∈ entries.map Prod.fst)
    (hget : ∀ (k : String) (v : α) (id : Nat), (k, v) ∈ entries →
      strings[id]? = some k → values[id]? = some v) :
    (strings.zip values).Perm entries := by
  have hzip : (strings.zip values).Nodup := by
    apply List.Nodup.of_map Prod.fst
    rwa [List.map_fst_zip hlength]
  refine (List.perm_ext_iff_of_nodup hzip (hnodup.of_map _)).2 ?_
  rintro ⟨k, v⟩
  rw [List.mem_iff_getElem?]
  simp only [List.getElem?_zip_eq_some]
  constructor
  · rintro ⟨id, hid, hv⟩
    obtain ⟨⟨k', v'⟩, hkv, rfl⟩ := List.mem_map.1 ((hmem k).1 (List.mem_of_getElem? hid))
    have hv' := hget _ _ id hkv hid
    rw [hv] at hv'
    obtain rfl := Option.some.inj hv'
    exact hkv
  · intro hkv
    obtain ⟨id, hid⟩ := List.mem_iff_getElem?.1 ((hmem k).2 (List.mem_map_of_mem hkv))
    exact ⟨id, hid, hget k v id hkv hid⟩

/-- A map stands for keys and values, in the order of the numbers of the keys. -/
structure Stores (m : StringMap α) (strings : List String) (values : List α) : Prop where
  numbering : Numbering m.size m.keyId? m.key strings
  holds : m.values.Holds values
  length_eq : strings.length = values.length
  trie : ∀ t, m.trie = some t → t.Stores strings ∧ strings ≠ []

theorem stores_none {a : PackedArray α} (h : a.Holds []) : Stores ⟨none, a⟩ [] [] where
  numbering :=
    { nodup := .nil
      size_eq := rfl
      find?_eq_some_iff := by simp [keyId?]
      name_eq_ok := by simp }
  holds := h
  length_eq := rfl
  trie := by simp

omit [FixedInt α] in
/-- A trie that has as many strings as there are entries has the keys of the entries, each once. -/
theorem nodup_of_stores {t : StringTrie} {strings : List String} {entries : List (String × α)}
    (ht : t.Stores strings) (hmem : ∀ s, s ∈ strings ↔ s ∈ entries.map Prod.fst)
    (hlength : strings.length = entries.length) : (entries.map Prod.fst).Nodup := by
  have hsub : strings.Subperm (entries.map Prod.fst) :=
    List.subperm_of_subset ht.nodup fun s hs => (hmem s).1 hs
  exact (hsub.perm_of_length_le (by simp [hlength])).nodup_iff.1 ht.nodup

/-- Values under the numbers of their keys make a map. -/
theorem stores_arrange {t : StringTrie} {strings : List String} {entries : List (String × α)}
    {initial arranged : Array α} {a : PackedArray α} (ht : t.Stores strings)
    (hmem : ∀ s, s ∈ strings ↔ s ∈ entries.map Prod.fst)
    (hlength : strings.length = entries.length) (hsize : initial.size = entries.length)
    (hne : entries ≠ []) (harranged : arrange t initial entries = .ok arranged)
    (ha : a.Holds arranged.toList) :
    Stores ⟨some t, a⟩ strings arranged.toList ∧ (strings.zip arranged.toList).Perm entries := by
  have hnodup := nodup_of_stores ht hmem hlength
  obtain ⟨arranged', harranged', hvalues, -, hput⟩ := exists_arrange ht hnodup
    (fun e he => (hmem e.1).2 (List.mem_map_of_mem he)) (by rw [hsize, hlength])
  obtain rfl := Except.ok.inj (harranged'.symm.trans harranged)
  have hget : ∀ (k : String) (v : α) (id : Nat), (k, v) ∈ entries →
      strings[id]? = some k → arranged'.toList[id]? = some v := by
    intro k v id hkv hid
    rw [Array.getElem?_toList]
    exact hput k v id hkv hid
  have hvaluesLength : strings.length = arranged'.toList.length :=
    (hlength.trans hsize.symm).trans (hvalues.symm.trans Array.length_toList.symm)
  refine ⟨⟨ht.numbering, ha, hvaluesLength, ?_⟩,
    perm_zip_of_getElem? ht.nodup hnodup hvaluesLength.le hmem hget⟩
  intro t' ht'
  obtain rfl := Option.some.inj ht'
  refine ⟨ht, fun hnil => hne (List.length_eq_zero_iff.1 ?_)⟩
  rw [← hlength, hnil, List.length_nil]

/-- The map of a list of entries stands for them in another order. -/
theorem stores_of_ofList {entries : List (String × α)} {m : StringMap α}
    (h : ofList entries = .ok m) :
    ∃ strings values, m.Stores strings values ∧ (strings.zip values).Perm entries := by
  rw [ofList] at h
  split at h
  · rename_i hempty
    obtain ⟨a, ha, h⟩ := Except.bind_eq_ok.1 h
    obtain rfl := Except.ok.inj h
    obtain rfl := List.isEmpty_iff.1 hempty
    exact ⟨[], [], stores_none (PackedArray.holds_ofList ha), List.Perm.nil⟩
  · rename_i hempty
    have hne : entries ≠ [] := fun hnil => hempty (List.isEmpty_iff.2 hnil)
    obtain ⟨t, ht⟩ : ∃ t, StringTrie.ofKeys (entries.map Prod.fst) = t := ⟨_, rfl⟩
    obtain ⟨strings, hstores, hmem⟩ : ∃ strings, t.Stores strings ∧
        ∀ s, s ∈ strings ↔ s ∈ entries.map Prod.fst := by
      subst ht
      exact ⟨_, StringTrie.stores_ofKeysIn _ _, fun s => mem_numberedStrings⟩
    simp only [ht] at h
    split at h
    · cases h
    · rename_i hsize
      obtain ⟨arranged, harranged, h⟩ := Except.bind_eq_ok.1 h
      obtain ⟨a, ha, h⟩ := Except.bind_eq_ok.1 h
      obtain rfl := Except.ok.inj h
      have hlength : strings.length = entries.length := by
        rw [← hstores.size_eq]
        exact not_not.1 hsize
      obtain ⟨hmap, hperm⟩ := stores_arrange hstores hmem hlength (Array.size_replicate ..) hne
        harranged (PackedArray.holds_ofList ha)
      exact ⟨strings, _, hmap, hperm⟩

/-- A map has less keys than there are addresses. -/
theorem lt_addressLimit_of_ofList {entries : List (String × α)} {m : StringMap α}
    (h : ofList entries = .ok m) : entries.length < addressLimit := by
  rw [ofList] at h
  split at h
  · rename_i hempty
    rw [List.isEmpty_iff.1 hempty]
    exact Nat.succ_pos _
  · dsimp only at h
    split at h
    · cases h
    · obtain ⟨arranged, harranged, h⟩ := Except.bind_eq_ok.1 h
      obtain ⟨a, ha, -⟩ := Except.bind_eq_ok.1 h
      have hlt := PackedArray.lt_addressLimit_of_ofList ha
      rwa [Array.length_toList, size_of_arrange harranged, Array.size_replicate] at hlt

namespace Stores

variable {m : StringMap α} {strings : List String} {values : List α} {s : String} {v : α} {id : Nat}

/-- The value of a key. -/
theorem find?_eq (h : m.Stores strings values) (hmem : (s, v) ∈ strings.zip values) :
    m.find? s = .ok (some v) := by
  obtain ⟨id, hid⟩ := List.mem_iff_getElem?.1 hmem
  obtain ⟨hs, hv⟩ := List.getElem?_zip_eq_some.1 hid
  rw [find?, (h.numbering.find?_eq_some_iff s id).2 hs]
  show (m.values.get id).map some = _
  rw [h.holds.get? hv]
  rfl

/-- Strings that are no keys have no value. -/
theorem find?_eq_none (h : m.Stores strings values) (hs : s ∉ strings) : m.find? s = .ok none := by
  rw [find?, h.numbering.find?_eq_none hs]

theorem value_eq (h : m.Stores strings values) (hv : values[id]? = some v) :
    m.value id = .ok v := by
  have hlt := (List.getElem?_eq_some_iff.1 hv).1
  rw [value, h.numbering.size_eq, if_pos (by rw [h.length_eq]; exact hlt)]
  exact h.holds.get? hv

theorem value_eq_error (h : m.Stores strings values) (hid : strings.length ≤ id) :
    m.value id = .error (.indexOutOfBounds id strings.length) := by
  rw [value, h.numbering.size_eq, if_neg (Nat.not_lt_of_le hid)]

theorem key_eq_error (h : m.Stores strings values) (hid : strings.length ≤ id) :
    m.key id = .error (.indexOutOfBounds id strings.length) := by
  have hsize := h.numbering.size_eq
  rw [key]
  cases htrie : m.trie with
  | none =>
    rw [size, htrie] at hsize
    rw [← hsize]
    rfl
  | some t => exact (h.trie t htrie).1.key_eq_error hid

/-- All keys are listed once. -/
theorem withPrefix_empty (h : m.Stores strings values) : ∃ entries : List (String × Nat),
    m.withPrefix "" = entries.map .ok ∧ (entries.map Prod.fst).Perm strings := by
  have hsize := h.numbering.size_eq
  cases htrie : m.trie with
  | none =>
    rw [size, htrie] at hsize
    obtain rfl : strings = [] := List.length_eq_zero_iff.1 hsize.symm
    refine ⟨[], ?_, List.Perm.nil⟩
    rw [withPrefix, htrie]
    rfl
  | some t =>
    obtain ⟨entries, hentries, hperm, -⟩ := (h.trie t htrie).1.withPrefix_empty
    refine ⟨entries, ?_, hperm⟩
    rw [withPrefix, htrie]
    exact hentries

end Stores

/-! ## The stored form -/

/-- A map as it is read from a file. -/
def mappedForm (m : StringMap α) : StringMap α := { m with values := m.values.mappedForm }

theorem Stores.mappedForm {m : StringMap α} {strings : List String} {values : List α}
    (h : m.Stores strings values) : m.mappedForm.Stores strings values :=
  ⟨h.numbering, h.holds.mappedForm, h.length_eq, h.trie⟩

/-- Two maps answer alike, by keys, by identifiers and by beginnings of keys. -/
structure SameAnswers (m n : StringMap α) : Prop where
  size_eq : n.size = m.size
  encoding_eq : n.encoding = m.encoding
  keyId?_eq : ∀ s, n.keyId? s = m.keyId? s
  find?_eq : ∀ s, n.find? s = m.find? s
  key_eq : ∀ id, n.key id = m.key id
  value_eq : ∀ id, n.value id = m.value id
  withPrefix_eq : ∀ start, n.withPrefix start = m.withPrefix start

theorem Stores.get_mappedForm {m : StringMap α} {strings : List String} {values : List α}
    (h : m.Stores strings values) {id : Nat} (hid : id < m.size) :
    m.values.mappedForm.get id = m.values.get id := by
  rw [h.numbering.size_eq, h.length_eq] at hid
  rw [h.holds.mappedForm id hid, h.holds id hid]

/-- A map answers in a file as it does in memory. -/
theorem Stores.sameAnswers_mappedForm {m : StringMap α} {strings : List String} {values : List α}
    (h : m.Stores strings values) : m.SameAnswers m.mappedForm where
  size_eq := rfl
  encoding_eq := rfl
  keyId?_eq := fun _ => rfl
  find?_eq := fun s => by
    have hkey : m.mappedForm.keyId? s = m.keyId? s := rfl
    rw [find?, find?, hkey]
    cases hs : m.keyId? s with
    | none => rfl
    | some id =>
      show (m.values.mappedForm.get id).map some = (m.values.get id).map some
      rw [h.get_mappedForm (h.numbering.lt_size hs)]
  key_eq := fun _ => rfl
  value_eq := fun id => by
    rw [value, value]
    show (if id < m.size then m.values.mappedForm.get id else _) = _
    split
    · rename_i hid
      exact h.get_mappedForm hid
    · rfl
  withPrefix_eq := fun _ => rfl

theorem toInt_ofInt_number (e : Encoding) : (Int16.ofInt e.number).toInt = e.number := by
  cases e <;> rfl

/-- A stored map is read back. -/
theorem readsBack_write {m : StringMap α} {strings : List String} {values : List α}
    (hm : m.Stores strings values) {out out' : Writer} (h : m.write out = .ok out') :
    ReadsBack out out' (read α) m.mappedForm := by
  obtain ⟨o₁, h₁, h⟩ := Except.bind_eq_ok.1 h
  obtain ⟨o₂, h₂, h⟩ := Except.bind_eq_ok.1 h
  apply (readsBack_putCount h₁).bind
  apply (readsBack_put o₁ (Int16.ofInt m.encoding.number)).bind
  rw [toInt_ofInt_number]
  apply (ReadsBack.check (Encoding.ofNumber_number m.encoding) _).bind
  apply (readsBack_put (o₁.put (Int16.ofInt m.encoding.number)) (0 : Int16)).bind
  apply (PackedArray.readsBack_write h₂).bind
  -- without keys no trie is written, and none is read
  obtain ⟨trie, a⟩ := m
  cases trie with
  | none =>
    obtain rfl := Except.ok.inj h
    exact ReadsBack.pure _ _
  | some t =>
    obtain ⟨ht, hne⟩ := hm.trie t rfl
    have hpos : t.size ≠ 0 := by
      rw [ht.size_eq]
      exact fun hzero => hne (List.length_eq_zero_iff.1 hzero)
    have hlong : t.size ≤ a.mappedForm.length := by
      rw [ht.size_eq, hm.length_eq]
      exact hm.holds.mappedForm.length_le
    rw [show StringMap.size ⟨some t, a⟩ = t.size from rfl, if_neg hpos]
    apply (ByteTrie.readsBack_write ht.wellShaped h).bind
    rw [if_neg]
    · exact ReadsBack.pure _ _
    · rintro (hne | hlt)
      · exact hne rfl
      · exact Nat.not_lt.2 hlong hlt

omit [FixedInt α] in
theorem local_read : Reader.Local (read α) := by
  apply Reader.local_readCount.bind
  intro count
  apply (Reader.local_read Int16).bind
  intro number
  apply (Reader.local_check _).bind
  intro encoding
  apply (Reader.local_read Int16).bind
  intro _
  apply PackedArray.local_read.bind
  intro values
  apply (Reader.local_pure _).ite
  apply ByteTrie.local_read.bind
  intro trie
  exact (Reader.local_pure _).ite_throw

end StringMap

end Paradigm
