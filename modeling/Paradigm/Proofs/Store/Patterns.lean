import Mathlib
import Paradigm.Proofs.Sorting
import Paradigm.Proofs.Storage.PlainArray
import Paradigm.Proofs.Storage.RecordLayout
import Paradigm.Proofs.Storage.Run
import Paradigm.Proofs.Table.TrieTable
import Paradigm.Proofs.Trie.StringMap
import Paradigm.Store.Patterns.Building

/-!
# The answers of stored patterns

The slots of a pattern lie one after the other from the place that is stored with its name.  Where
they hold the records of the pattern, the tables give back what the pattern was built from.

## Main definitions

* `PatternStore.scheme`: what the slots of patterns refer to
* `PatternStore.Stores`: the tables stand for given patterns
* `PatternStore.Shows`: what the tables tell of one pattern
* `PatternStore.mappedForm`: the tables as they are read from a file

## Main results

* `PatternStore.Stores.shows`: every pattern is found under its name
* `PatternStore.Stores.patternNamed?_eq_none`: no other name has a pattern
* `PatternStore.readsBack_write`: the stored form is read back
-/

namespace Paradigm

namespace PatternStore

/-! ## Tables that stand for patterns -/

/-- What the slots of given patterns refer to in the tables. -/
def scheme (s : PatternStore) (ps : List ResolvedPattern) : Scheme :=
  ⟨setsOf ps, frequenciesOf ps, s.suffixes, s.headLayout, s.formLayout⟩

/-- The tables stand for patterns, whose slots are given. -/
structure Stores (s : PatternStore) (ps : List ResolvedPattern) (slots : List (List Int64)) :
    Prop where
  sets : s.grammemeSets.toList = setsOf ps
  frequencies : s.frequencies.toList = frequenciesOf ps
  suffixes : ∃ strings, s.suffixes.trie.Stores strings ∧ strings ⊆ suffixesOf ps
  slotsOf : List.Forall₂ (fun p run => (s.scheme ps).slotsOf p = .ok run) ps slots
  holds : s.slots.Holds slots.flatten
  bound : slots.flatten.length < addressLimit
  headLayout : s.headLayout.names = headFields ∧ s.headLayout.WithinWord
  formLayout : s.formLayout.names = formFields ∧ s.formLayout.WithinWord
  runLayout : s.runLayout.names = runFields ∧ s.runLayout.WithinWord
  starts : ∃ names values, s.starts.Stores names values ∧
    (names.zip values).Perm ((ps.map ResolvedPattern.name).zip
      ((placesFrom 0 slots).map Int32.ofNat))
  places : ∀ place ∈ placesFrom 0 slots, place < countLimit
  runs : ∃ names values, s.runs.Stores names values

/-! ## The slots of a pattern -/

theorem Scheme.length_slotsOf {c : Scheme} {p : ResolvedPattern} {slots : List Int64}
    (h : c.slotsOf p = .ok slots) :
    slots.length = 1 + (p.lemmaSuffixes.length + p.forms.length) := by
  obtain ⟨head, -, h⟩ := Except.bind_eq_ok.1 h
  obtain ⟨lemmas, hlemmas, h⟩ := Except.bind_eq_ok.1 h
  obtain ⟨forms, hforms, h⟩ := Except.bind_eq_ok.1 h
  obtain rfl := Except.ok.inj h
  rw [List.length_cons, List.length_append, length_of_mapM_eq_ok hlemmas,
    length_of_mapM_eq_ok hforms, Nat.add_comm]

/-- The slots of a pattern lie from a place on. -/
structure Placed (s : PatternStore) (ps : List ResolvedPattern) (p : ResolvedPattern)
    (place : Nat) : Prop where
  bound : place + 1 + p.lemmaSuffixes.length + p.forms.length < addressLimit
  head : ∃ raw, s.slot place = .ok raw ∧
    s.headLayout.encode ((s.scheme ps).headRecord p) = .ok raw
  lemmaIds : ∀ (j : Nat) suffix, p.lemmaSuffixes[j]? = some suffix → ∃ id,
    s.suffixId? suffix = some id ∧ s.slot (place + 1 + j) = .ok (UInt64.ofNat id)
  forms : ∀ (j : Nat) form, p.forms[j]? = some form → ∃ id raw,
    s.suffixId? form.1 = some id ∧
      s.slot (place + 1 + p.lemmaSuffixes.length + j) = .ok raw ∧
      s.formLayout.encode ((s.scheme ps).formRecord form.2 id) = .ok raw

/-- After the head of a pattern come the identifiers of the suffixes of lemmas. -/
theorem getElem?_cons_append_left (head : Int64) {ids : List Int64} (forms : List Int64) {j : Nat}
    (hj : j < ids.length) : (head :: (ids ++ forms))[1 + j]? = ids[j]? := by
  rw [Nat.add_comm, List.getElem?_cons_succ, List.getElem?_append_left hj]

/-- After the identifiers of the suffixes of lemmas come the forms. -/
theorem getElem?_cons_append_right (head : Int64) (ids forms : List Int64) (j : Nat) :
    (head :: (ids ++ forms))[1 + (ids.length + j)]? = forms[j]? := by
  rw [Nat.add_comm, List.getElem?_cons_succ, List.getElem?_append_right (Nat.le_add_right _ _),
    Nat.add_sub_cancel_left]

theorem Placed.exists_suffixId {s : PatternStore} {ps : List ResolvedPattern}
    {p : ResolvedPattern} {place : Nat} (h : s.Placed ps p place) {suffix : String}
    (hsuffix : suffix ∈ p.lemmaSuffixes) : ∃ id, s.suffixId? suffix = some id := by
  obtain ⟨j, hj⟩ := List.mem_iff_getElem?.1 hsuffix
  obtain ⟨id, hid, -⟩ := h.lemmaIds j suffix hj
  exact ⟨id, hid⟩

/-- Slots that can be read from a place on hold the records of the pattern there. -/
theorem placed_of_slotsOf {s : PatternStore} {ps : List ResolvedPattern} {p : ResolvedPattern}
    {slots : List Int64} {place : Nat} (h : (s.scheme ps).slotsOf p = .ok slots)
    (hbound : place + slots.length < addressLimit)
    (hread : ∀ (j : Nat) slot, slots[j]? = some slot → s.slots.get (place + j) = .ok slot) :
    s.Placed ps p place := by
  have hslotsLength := Scheme.length_slotsOf h
  -- the slots are the head, the identifiers of suffixes and the forms
  obtain ⟨head, hhead, h⟩ := Except.bind_eq_ok.1 h
  obtain ⟨lemmas, hlemmas, h⟩ := Except.bind_eq_ok.1 h
  obtain ⟨forms, hforms, h⟩ := Except.bind_eq_ok.1 h
  obtain rfl := Except.ok.inj h
  have hlength : lemmas.length = p.lemmaSuffixes.length := length_of_mapM_eq_ok hlemmas
  have hslot (j : Nat) (slot : Int64) (hj : (head.toInt64 :: (lemmas ++ forms))[j]? = some slot) :
      s.slot (place + j) = .ok slot.toUInt64 := by
    rw [PatternStore.slot, hread j slot hj]
    rfl
  constructor
  case bound => omega
  case head => exact ⟨head, hslot 0 head.toInt64 rfl, hhead⟩
  case lemmaIds =>
    intro j suffix hj
    obtain ⟨hlt, rfl⟩ := List.getElem?_eq_some_iff.1 hj
    have hj : j < lemmas.length := by rwa [hlength]
    obtain ⟨id, hid, hlemma⟩ := Except.map_eq_ok.1 (getElem_of_mapM_eq_ok hlemmas hlt hj)
    refine ⟨id, StringTable.require_eq_ok.1 hid, ?_⟩
    have hget : (head.toInt64 :: (lemmas ++ forms))[1 + j]? = some (Int64.ofNat id) := by
      rw [getElem?_cons_append_left _ _ hj, List.getElem?_eq_getElem hj, ← hlemma]
    rw [Nat.add_assoc, hslot _ _ hget]
    rfl
  case forms =>
    intro j form hj
    obtain ⟨hlt, rfl⟩ := List.getElem?_eq_some_iff.1 hj
    have hform : j < forms.length := by rwa [length_of_mapM_eq_ok hforms]
    obtain ⟨id, hid, hraw⟩ := Except.bind_eq_ok.1 (getElem_of_mapM_eq_ok hforms hlt hform)
    obtain ⟨raw, hraw, hslotForm⟩ := Except.bind_eq_ok.1 hraw
    refine ⟨id, raw, StringTable.require_eq_ok.1 hid, ?_, hraw⟩
    have hget := getElem?_cons_append_right head.toInt64 lemmas forms j
    rw [hlength, List.getElem?_eq_getElem hform, ← Except.ok.inj hslotForm] at hget
    rw [Nat.add_assoc, Nat.add_assoc, hslot _ _ hget]
    rfl

/-! ## Bounds -/

/-- There is a slot for each head and for each suffix. -/
theorem length_flatten_of_lengths {ps : List ResolvedPattern} {slots : List (List Int64)}
    (h : List.Forall₂ (fun p run => run.length = 1 + (p.lemmaSuffixes.length + p.forms.length)) ps
      slots) : slots.flatten.length = ps.length + (suffixesOf ps).length := by
  induction h with
  | nil => rfl
  | cons hp hps ih =>
    simp only [suffixesOf] at ih ⊢
    rw [List.flatten_cons, List.length_append, ih, hp, List.flatMap_cons, List.length_append,
      List.length_append, ResolvedPattern.formSuffixes, List.length_map, List.length_cons]
    omega

theorem Scheme.length_flatten {c : Scheme} {ps : List ResolvedPattern} {slots : List (List Int64)}
    (h : List.Forall₂ (fun p run => c.slotsOf p = .ok run) ps slots) :
    slots.flatten.length = ps.length + (suffixesOf ps).length :=
  length_flatten_of_lengths (h.imp fun _ _ => Scheme.length_slotsOf)

theorem length_formSets_le (ps : List ResolvedPattern) :
    (ps.flatMap ResolvedPattern.formSets).length ≤ (suffixesOf ps).length := by
  induction ps with
  | nil => exact le_rfl
  | cons p ps ih =>
    simp only [suffixesOf, List.flatMap_cons, List.length_append] at ih ⊢
    rw [ResolvedPattern.formSets, ResolvedPattern.formSuffixes, List.length_map, List.length_map]
    omega

namespace Stores

variable {s : PatternStore} {ps : List ResolvedPattern} {slots : List (List Int64)}

theorem length_setsOf_lt (h : s.Stores ps slots) : (setsOf ps).length < addressLimit := by
  have hbound := h.bound
  rw [Scheme.length_flatten h.slotsOf] at hbound
  have hsets : (setsOf ps).length ≤ _ := length_eraseDups_le _
  have hforms := length_formSets_le ps
  rw [List.length_append, List.length_map] at hsets
  omega

theorem length_frequenciesOf_lt (h : s.Stores ps slots) :
    (frequenciesOf ps).length < addressLimit := by
  have hbound := h.bound
  rw [Scheme.length_flatten h.slotsOf] at hbound
  have hfrequencies : (frequenciesOf ps).length ≤ _ := length_eraseReps_le _
  rw [List.length_mergeSort, List.length_map] at hfrequencies
  omega

/-- The identifier of a suffix fits a word, and leads back to the suffix. -/
theorem suffix_eq_ok (h : s.Stores ps slots) {suffix : String} {id : Nat}
    (hid : s.suffixId? suffix = some id) : id < addressLimit ∧ s.suffix id = .ok suffix := by
  obtain ⟨strings, hstrings, hsub⟩ := h.suffixes
  -- no suffix is stored that does not have a slot
  have hbound := h.bound
  rw [Scheme.length_flatten h.slotsOf] at hbound
  have hle : strings.length ≤ (suffixesOf ps).length :=
    (List.subperm_of_subset hstrings.nodup hsub).length_le
  have hlt := hstrings.numbering.lt_size hid
  rw [hstrings.numbering.size_eq] at hlt
  exact ⟨by omega, hstrings.numbering.name_of_find? hid⟩

theorem suffix_inj (h : s.Stores ps slots) {r t : String} {id : Nat}
    (hr : s.suffixId? r = some id) (ht : s.suffixId? t = some id) : r = t := by
  obtain ⟨strings, hstrings, -⟩ := h.suffixes
  exact hstrings.numbering.eq_of_find? hr ht

/-- A set of grammemes is found under its number. -/
theorem grammemeSet_eq_ok (h : s.Stores ps slots) {set : Mask} (hset : set ∈ setsOf ps) :
    s.grammemeSet (UInt64.ofNat ((setsOf ps).idxOf set)).toNat = .ok set := by
  have hlt := List.idxOf_lt_length_of_mem hset
  rw [toNat_ofNat (hlt.trans h.length_setsOf_lt)]
  apply PlainArray.get_eq_ok
  rw [h.sets, List.getElem?_eq_getElem hlt, List.getElem_idxOf]

/-- A frequency is found under its number. -/
theorem frequency_eq_ok (h : s.Stores ps slots) {frequency : Int32}
    (hmem : frequency ∈ frequenciesOf ps) :
    s.frequency (UInt64.ofNat ((frequenciesOf ps).idxOf frequency)).toNat = .ok frequency := by
  have hlt := List.idxOf_lt_length_of_mem hmem
  rw [toNat_ofNat (hlt.trans h.length_frequenciesOf_lt)]
  apply PlainArray.get_eq_ok
  rw [h.frequencies, List.getElem?_eq_getElem hlt, List.getElem_idxOf]

end Stores

/-! ## Views of patterns -/

/-- The head of a pattern whose slots lie from a place on. -/
def recordAt (ps : List ResolvedPattern) (p : ResolvedPattern) (place : Nat) : PatternRecord where
  start := place
  inflectionCount := p.forms.length
  lemmaCount := p.lemmaSuffixes.length
  posIndex := (setsOf ps).idxOf p.partsOfSpeech
  frequencyIndex := (frequenciesOf ps).idxOf p.frequency

/-- A form of a pattern, with the identifier that the suffix has. -/
def inflectionOf (s : PatternStore) (v : Pattern) (form : String × Mask) : Inflection :=
  ⟨v, (s.suffixId? form.1).getD 0, form.1, form.2⟩

/-- What the tables tell of a pattern, by its identifier and by its name. -/
structure Shows (s : PatternStore) (p : ResolvedPattern) (v : Pattern) : Prop where
  identifier : s.identifier? p.name = some v.id
  pattern_eq : s.pattern v.id = .ok v
  name_eq : s.name v.id = .ok p.name
  partsOfSpeech : v.partsOfSpeech = p.partsOfSpeech
  frequency_eq : s.frequency v.record.frequencyIndex = .ok p.frequency
  lemmaSuffixes_eq : s.lemmaSuffixes v = .ok p.lemmaSuffixes
  inflectionCount : v.record.inflectionCount = p.forms.length
  inflections_eq : s.inflections v = .ok (p.forms.map (s.inflectionOf v))
  lemmaMatches_eq : s.lemmaMatches v =
    .ok ((p.forms.map (s.inflectionOf v)).filter (p.lemmaSuffixes.contains ·.suffix))

section Views

variable {s : PatternStore} {ps : List ResolvedPattern} {slots : List (List Int64)}
  {p : ResolvedPattern} {place id : Nat}

theorem toInt_toNat_ofNat {n : Nat} (h : n < countLimit) :
    ¬ Int32.ofNat n < 0 ∧ (Int32.ofNat n).toInt.toNat = n := by
  have hint := toInt_ofNat_of_lt h
  rw [Int32.lt_iff_toInt_lt, hint]
  simp

theorem Placed.record_eq_ok (h : s.Stores ps slots) (hp : s.Placed ps p place)
    (hstart : s.starts.value id = .ok (Int32.ofNat place)) (hplace : place < countLimit) :
    s.record id = .ok (recordAt ps p place) := by
  obtain ⟨hneg, hnat⟩ := toInt_toNat_ofNat hplace
  obtain ⟨raw, hslot, hraw⟩ := hp.head
  have hbound := hp.bound
  have hdecode := RecordLayout.decode_of_encode h.headLayout.2 hraw
  have hpos : (setsOf ps).idxOf p.partsOfSpeech < addressLimit :=
    List.idxOf_le_length.trans_lt h.length_setsOf_lt
  have hfrequency : (frequenciesOf ps).idxOf p.frequency < addressLimit :=
    List.idxOf_le_length.trans_lt h.length_frequenciesOf_lt
  rw [record, hstart, Except.ok_bind, if_neg hneg]
  simp only [hnat, hslot, hdecode, Except.ok_bind, Scheme.headRecord, quadrupleOf_fourFields]
  dsimp only [scheme]
  rw [toNat_ofNat (by omega), toNat_ofNat (by omega), toNat_ofNat hpos, toNat_ofNat hfrequency]
  rfl

/-- The form of a pattern with a number. -/
theorem Placed.inflectionAt_eq_ok (h : s.Stores ps slots) (hmem : p ∈ ps)
    (hp : s.Placed ps p place) {j : Nat} {form : String × Mask} (hform : p.forms[j]? = some form) :
    let v : Pattern := ⟨id, recordAt ps p place, p.partsOfSpeech⟩
    s.inflectionAt v j = .ok (s.inflectionOf v form) := by
  intro v
  have hbound := hp.bound
  obtain ⟨hlt, -⟩ := List.getElem?_eq_some_iff.1 hform
  obtain ⟨suffixId, raw, hid, hslot, hraw⟩ := hp.forms j form hform
  obtain ⟨hidlt, hsuffix⟩ := h.suffix_eq_ok hid
  have hset : form.2 ∈ setsOf ps := by
    rw [setsOf, List.mem_eraseDups, List.mem_append, List.mem_flatMap]
    exact Or.inr ⟨p, hmem, List.mem_map_of_mem (List.mem_of_getElem? hform)⟩
  -- all places of the pattern are machine words
  have hoffset : v.record.formsOffset = .ok (place + 1 + p.lemmaSuffixes.length) := by
    show (Checked.add addressLimit place 1 >>= _) = _
    rw [Checked.add_eq_ok (by omega), Except.ok_bind]
    exact Checked.add_eq_ok (by show place + 1 + p.lemmaSuffixes.length < addressLimit; omega)
  have hplace : Checked.add addressLimit (place + 1 + p.lemmaSuffixes.length) j =
      .ok (place + 1 + p.lemmaSuffixes.length + j) := Checked.add_eq_ok (by omega)
  have hentry : s.entry (place + 1 + p.lemmaSuffixes.length + j) = .ok (form.2, suffixId) := by
    rw [entry, hslot, Except.ok_bind, RecordLayout.decode_of_encode h.formLayout.2 hraw,
      Except.ok_bind, Scheme.formRecord, pairOf_twoFields]
    show (s.grammemeSet (UInt64.ofNat ((setsOf ps).idxOf form.2)).toNat >>= _) = _
    rw [h.grammemeSet_eq_ok hset, Except.ok_bind, toNat_ofNat hidlt]
    rfl
  have hcount : ¬ v.record.inflectionCount ≤ j := Nat.not_le.2 hlt
  rw [inflectionAt, if_neg hcount]
  show (liftM v.record.formsOffset >>= _) = _
  rw [hoffset, Checked.liftM_ok, Except.ok_bind, hplace, Checked.liftM_ok, Except.ok_bind, hentry]
  show (s.suffix suffixId >>= _) = _
  rw [hsuffix, inflectionOf, hid]
  rfl

theorem Placed.inflections_eq_ok (h : s.Stores ps slots) (hmem : p ∈ ps)
    (hp : s.Placed ps p place) :
    let v : Pattern := ⟨id, recordAt ps p place, p.partsOfSpeech⟩
    s.inflections v = .ok (p.forms.map (s.inflectionOf v)) := by
  intro v
  have hcount : v.record.inflectionCount = (p.forms.map (s.inflectionOf v)).length := by
    rw [List.length_map]
    rfl
  rw [inflections, hcount]
  apply valuesFrom_eq_ok
  intro j i hj
  rw [List.getElem?_map, Option.map_eq_some_iff] at hj
  obtain ⟨form, hform, rfl⟩ := hj
  rw [Nat.zero_add]
  exact hp.inflectionAt_eq_ok h hmem hform

theorem Placed.lemmaSuffixIds_eq_ok (h : s.Stores ps slots) (hp : s.Placed ps p place) :
    s.lemmaSuffixIds ⟨id, recordAt ps p place, p.partsOfSpeech⟩ =
      .ok (p.lemmaSuffixes.map fun t => (s.suffixId? t).getD 0) := by
  have hbound := hp.bound
  have hstart : (recordAt ps p place).lemmaOffset = .ok (place + 1) :=
    Checked.add_eq_ok (by show place + 1 < addressLimit; omega)
  have hstop : Checked.add addressLimit (place + 1) (recordAt ps p place).lemmaCount =
      .ok (place + 1 + p.lemmaSuffixes.length) :=
    Checked.add_eq_ok (by show place + 1 + p.lemmaSuffixes.length < addressLimit; omega)
  have hcount : place + 1 + p.lemmaSuffixes.length - (place + 1) =
      (p.lemmaSuffixes.map fun t => UInt64.ofNat ((s.suffixId? t).getD 0)).length := by
    rw [List.length_map, Nat.add_sub_cancel_left]
  have hvalues : valuesFrom s.slot (place + 1)
      (p.lemmaSuffixes.map fun t => UInt64.ofNat ((s.suffixId? t).getD 0)).length =
        .ok (p.lemmaSuffixes.map fun t => UInt64.ofNat ((s.suffixId? t).getD 0)) := by
    apply valuesFrom_eq_ok
    intro j word hj
    rw [List.getElem?_map, Option.map_eq_some_iff] at hj
    obtain ⟨suffix, hsuffix, rfl⟩ := hj
    obtain ⟨suffixId, hid, hslot⟩ := hp.lemmaIds j suffix hsuffix
    rw [hslot, hid]
    rfl
  rw [lemmaSuffixIds]
  simp only [hstart, hstop, hcount, hvalues, Checked.liftM_ok, Except.ok_bind]
  refine congrArg Except.ok ?_
  rw [List.map_map]
  apply List.map_congr_left
  intro suffix hsuffix
  obtain ⟨suffixId, hid⟩ := hp.exists_suffixId hsuffix
  rw [Function.comp_apply, hid]
  exact toNat_ofNat (h.suffix_eq_ok hid).1

theorem Placed.lemmaSuffixes_eq_ok (h : s.Stores ps slots) (hp : s.Placed ps p place) :
    s.lemmaSuffixes ⟨id, recordAt ps p place, p.partsOfSpeech⟩ = .ok p.lemmaSuffixes := by
  rw [lemmaSuffixes, hp.lemmaSuffixIds_eq_ok h, Except.ok_bind, mapM_eq_ok_iff,
    List.forall₂_map_left_iff, List.forall₂_same]
  intro suffix hsuffix
  obtain ⟨suffixId, hid⟩ := hp.exists_suffixId hsuffix
  rw [hid]
  exact (h.suffix_eq_ok hid).2

/-- A form has one of the identifiers of suffixes if it has one of the suffixes. -/
theorem Placed.contains_suffixId (h : s.Stores ps slots) (hp : s.Placed ps p place) {v : Pattern}
    {form : String × Mask} (hform : form ∈ p.forms) :
    (p.lemmaSuffixes.map fun t => (s.suffixId? t).getD 0).contains
      (s.inflectionOf v form).suffixId = p.lemmaSuffixes.contains form.1 := by
  obtain ⟨j, hj⟩ := List.mem_iff_getElem?.1 hform
  obtain ⟨formId, _, hformId, -, -⟩ := hp.forms j form hj
  rw [Bool.eq_iff_iff, List.contains_iff_mem, List.contains_iff_mem, List.mem_map]
  constructor
  · -- suffixes with one identifier are the same
    rintro ⟨suffix, hsuffix, heq⟩
    obtain ⟨suffixId, hid⟩ := hp.exists_suffixId hsuffix
    rw [inflectionOf, hid, hformId] at heq
    obtain rfl : suffixId = formId := heq
    rwa [← h.suffix_inj hid hformId]
  · intro hmem
    exact ⟨form.1, hmem, rfl⟩

theorem Placed.lemmaMatches_eq_ok (h : s.Stores ps slots) (hmem : p ∈ ps)
    (hp : s.Placed ps p place) :
    let v : Pattern := ⟨id, recordAt ps p place, p.partsOfSpeech⟩
    s.lemmaMatches v =
      .ok ((p.forms.map (s.inflectionOf v)).filter (p.lemmaSuffixes.contains ·.suffix)) := by
  intro v
  rw [lemmaMatches, hp.lemmaSuffixIds_eq_ok h, Except.ok_bind, hp.inflections_eq_ok h hmem,
    Except.ok_bind]
  refine congrArg Except.ok (List.filter_congr ?_)
  intro i hi
  obtain ⟨form, hform, rfl⟩ := List.mem_map.1 hi
  exact hp.contains_suffixId h hform

end Views

theorem id_of_pattern_eq_ok {s : PatternStore} {id : Nat} {v : Pattern}
    (h : s.pattern id = .ok v) : v.id = id := by
  obtain ⟨record, -, h⟩ := Except.bind_eq_ok.1 h
  obtain ⟨set, -, h⟩ := Except.bind_eq_ok.1 h
  obtain rfl := Except.ok.inj h
  rfl

namespace Stores

variable {s : PatternStore} {ps : List ResolvedPattern} {slots : List (List Int64)}

/-- The slots of a pattern lie from its place on. -/
theorem placed (h : s.Stores ps slots) {i place : Nat} {p : ResolvedPattern}
    (hp : ps[i]? = some p) (hplace : (placesFrom 0 slots)[i]? = some place) :
    s.Placed ps p place := by
  obtain ⟨hi, rfl⟩ := List.getElem?_eq_some_iff.1 hp
  have hlt : i < slots.length := h.slotsOf.length_eq ▸ hi
  have hslots : slots[i]? = some slots[i] := List.getElem?_eq_getElem hlt
  have hfirst : (placesFrom ([] : List Int64).length slots)[i]? = some place := hplace
  apply placed_of_slotsOf (h.slotsOf.get hi hlt)
    ((place_add_length_le hslots hfirst).trans_lt h.bound)
  intro j slot hj
  have hget := getElem?_flatten_of_place hslots hfirst (List.getElem?_eq_some_iff.1 hj).1
  exact h.holds.get? (hget.trans hj)

/-- The identifier of a name leads to the place of the pattern. -/
theorem exists_placed (h : s.Stores ps slots) {p : ResolvedPattern} (hmem : p ∈ ps) :
    ∃ id place, s.identifier? p.name = some id ∧ s.name id = .ok p.name ∧
      s.record id = .ok (recordAt ps p place) ∧ s.Placed ps p place := by
  obtain ⟨i, hi⟩ := List.mem_iff_getElem?.1 hmem
  have hplaces : i < (placesFrom 0 slots).length := by
    rw [length_placesFrom]
    exact h.slotsOf.length_eq ▸ (List.getElem?_eq_some_iff.1 hi).1
  obtain ⟨place, hplace⟩ : ∃ place, (placesFrom 0 slots)[i]? = some place :=
    ⟨_, List.getElem?_eq_getElem hplaces⟩
  have hp := h.placed hi hplace
  obtain ⟨names, values, hstarts, hperm⟩ := h.starts
  have hentry : (p.name, Int32.ofNat place) ∈ names.zip values := by
    rw [hperm.mem_iff]
    apply List.mem_of_getElem? (i := i)
    rw [List.getElem?_zip_eq_some, List.getElem?_map, List.getElem?_map, hi, hplace]
    exact ⟨rfl, rfl⟩
  obtain ⟨id, hid⟩ := List.mem_iff_getElem?.1 hentry
  obtain ⟨hname, hvalue⟩ := List.getElem?_zip_eq_some.1 hid
  have hidentifier : s.identifier? p.name = some id :=
    (hstarts.numbering.find?_eq_some_iff _ _).2 hname
  have hlimit := h.places place (List.mem_of_getElem? hplace)
  exact ⟨id, place, hidentifier, hstarts.numbering.name_of_find? hidentifier,
    hp.record_eq_ok h (hstarts.value_eq hvalue) hlimit, hp⟩

/-- Every pattern is found under its name. -/
theorem shows (h : s.Stores ps slots) {p : ResolvedPattern} (hmem : p ∈ ps) :
    ∃ v, s.Shows p v := by
  obtain ⟨id, place, hidentifier, hname, hrecord, hp⟩ := h.exists_placed hmem
  have hset : p.partsOfSpeech ∈ setsOf ps := by
    rw [setsOf, List.mem_eraseDups, List.mem_append]
    exact Or.inl (List.mem_map_of_mem hmem)
  have hfrequency : p.frequency ∈ frequenciesOf ps :=
    mem_eraseReps_mergeSort.2 (List.mem_map_of_mem hmem)
  refine ⟨⟨id, recordAt ps p place, p.partsOfSpeech⟩, ?_⟩
  constructor
  case identifier => exact hidentifier
  case pattern_eq =>
    have hpos := h.grammemeSet_eq_ok hset
    rw [toNat_ofNat ((List.idxOf_lt_length_of_mem hset).trans h.length_setsOf_lt)] at hpos
    rw [pattern, hrecord, Except.ok_bind]
    show (s.grammemeSet ((setsOf ps).idxOf p.partsOfSpeech) >>= _) = _
    rw [hpos]
    rfl
  case name_eq => exact hname
  case partsOfSpeech => rfl
  case frequency_eq =>
    have hget := h.frequency_eq_ok hfrequency
    rwa [toNat_ofNat ((List.idxOf_lt_length_of_mem hfrequency).trans
      h.length_frequenciesOf_lt)] at hget
  case lemmaSuffixes_eq => exact hp.lemmaSuffixes_eq_ok h
  case inflectionCount => rfl
  case inflections_eq => exact hp.inflections_eq_ok h hmem
  case lemmaMatches_eq => exact hp.lemmaMatches_eq_ok h hmem

/-- The names of patterns. -/
theorem names (h : s.Stores ps slots) : ∃ names, names.Perm (ps.map ResolvedPattern.name) ∧
    Numbering s.size s.identifier? s.name names := by
  obtain ⟨names, values, hstarts, hperm⟩ := h.starts
  refine ⟨names, ?_, hstarts.numbering⟩
  have hfst := hperm.map Prod.fst
  have hlength : (ps.map ResolvedPattern.name).length ≤
      ((placesFrom 0 slots).map Int32.ofNat).length := by
    rw [List.length_map, List.length_map, length_placesFrom, h.slotsOf.length_eq]
  rwa [List.map_fst_zip hlength, List.map_fst_zip hstarts.length_eq.le] at hfst

/-- There are as many patterns as the tables were built from. -/
theorem size_eq (h : s.Stores ps slots) : s.size = ps.length := by
  obtain ⟨names, hperm, hnumbering⟩ := h.names
  rw [hnumbering.size_eq, hperm.length_eq, List.length_map]

/-- The identifier of a name leads to the pattern with this name. -/
theorem pattern_eq_ok (h : s.Stores ps slots) {name : String} {id : Nat}
    (hid : s.identifier? name = some id) :
    ∃ v, s.pattern id = .ok v ∧ ∀ p ∈ ps, p.name = name → s.Shows p v := by
  obtain ⟨names, hperm, hnumbering⟩ := h.names
  have hname : name ∈ ps.map ResolvedPattern.name :=
    hperm.mem_iff.1 (hnumbering.mem_iff.2 ⟨id, hid⟩)
  -- all patterns with the name have its identifier, and so one view shows them all
  have hview : ∀ p ∈ ps, p.name = name → ∃ v, s.pattern id = .ok v ∧ s.Shows p v := by
    rintro p hp rfl
    obtain ⟨v, hv⟩ := h.shows hp
    obtain rfl : v.id = id := Option.some.inj (hv.identifier.symm.trans hid)
    exact ⟨v, hv.pattern_eq, hv⟩
  obtain ⟨p, hp, hpname⟩ := List.mem_map.1 hname
  obtain ⟨v, hv, -⟩ := hview p hp hpname
  refine ⟨v, hv, ?_⟩
  intro q hq hqname
  obtain ⟨w, hw, hshows⟩ := hview q hq hqname
  obtain rfl := Except.ok.inj (hv.symm.trans hw)
  exact hshows

/-- There are no other patterns than those that the tables were built from. -/
theorem exists_shows (h : s.Stores ps slots) {id : Nat} {v : Pattern} (hv : s.pattern id = .ok v) :
    ∃ p ∈ ps, s.Shows p v := by
  obtain ⟨names, hperm, hnumbering⟩ := h.names
  -- an identifier without a name has no record
  have hid : id < names.length := by
    rw [← hnumbering.size_eq]
    obtain ⟨record, hrecord, -⟩ := Except.bind_eq_ok.1 hv
    obtain ⟨start, hstart, -⟩ := Except.bind_eq_ok.1 hrecord
    unfold StringMap.value at hstart
    split at hstart
    · assumption
    · cases hstart
  have hidentifier : s.identifier? names[id] = some id :=
    (hnumbering.find?_eq_some_iff _ _).2 (List.getElem?_eq_getElem hid)
  obtain ⟨w, hw, hshows⟩ := h.pattern_eq_ok hidentifier
  obtain rfl := Except.ok.inj (hv.symm.trans hw)
  obtain ⟨p, hp, hname⟩ := List.mem_map.1 (hperm.mem_iff.1 (List.getElem_mem hid))
  exact ⟨p, hp, hshows p hp hname⟩

/-- No pattern is found under other names. -/
theorem patternNamed?_eq_none (h : s.Stores ps slots) {name : String}
    (hname : name ∉ ps.map ResolvedPattern.name) : s.patternNamed? name = .ok none := by
  obtain ⟨names, hperm, hnumbering⟩ := h.names
  rw [patternNamed?, hnumbering.find?_eq_none fun hmem => hname (hperm.mem_iff.1 hmem)]
  rfl

end Stores

theorem Shows.patternNamed?_eq {s : PatternStore} {p : ResolvedPattern} {v : Pattern}
    (h : s.Shows p v) : s.patternNamed? p.name = .ok (some v) := by
  rw [patternNamed?, h.identifier]
  show (s.pattern v.id).map some = _
  rw [h.pattern_eq]
  rfl

/-- A pattern contains the suffixes of its forms. -/
theorem Shows.containsSuffix_eq {s : PatternStore} {p : ResolvedPattern} {v : Pattern}
    (h : s.Shows p v) (suffix : String) :
    s.containsSuffix v suffix = .ok (p.formSuffixes.contains suffix) := by
  rw [containsSuffix, h.inflections_eq, Except.ok_bind]
  refine congrArg Except.ok ?_
  rw [Bool.eq_iff_iff, List.any_eq_true, List.contains_iff_mem, ResolvedPattern.formSuffixes,
    List.mem_map]
  simp [inflectionOf]

/-! ## The stored form -/

/-- The tables as they are read from a file, where the suffixes take a number of bytes. -/
def mappedForm (s : PatternStore) (suffixSize : Nat) : PatternStore :=
  { s with
    grammemeSets := s.grammemeSets.mappedForm
    suffixes := { s.suffixes with encodedSize := suffixSize }
    slots := s.slots.mappedForm
    frequencies := s.frequencies.mappedForm
    starts := s.starts.mappedForm
    runs := s.runs.mappedForm
    suffixIndex := s.suffixIndex.mappedForm }

theorem Stores.mappedForm {s : PatternStore} {ps : List ResolvedPattern}
    {slots : List (List Int64)} (h : s.Stores ps slots) (suffixSize : Nat) :
    (s.mappedForm suffixSize).Stores ps slots := by
  obtain ⟨names, values, hstarts, hperm⟩ := h.starts
  obtain ⟨suffixes, lists, hruns⟩ := h.runs
  exact {
    sets := s.grammemeSets.toList_mappedForm.trans h.sets
    frequencies := s.frequencies.toList_mappedForm.trans h.frequencies
    suffixes := h.suffixes
    slotsOf := h.slotsOf
    holds := h.holds.mappedForm
    bound := h.bound
    headLayout := h.headLayout
    formLayout := h.formLayout
    runLayout := h.runLayout
    starts := ⟨names, values, hstarts.mappedForm, hperm⟩
    places := h.places
    runs := ⟨suffixes, lists, hruns.mappedForm⟩ }

/-- Tables that are read from a file are stored as before. -/
theorem write_mappedForm (s : PatternStore) (suffixSize : Nat) (out : Writer) :
    (s.mappedForm suffixSize).write out = s.write out := by
  simp only [write, mappedForm, PlainArray.size_mappedForm, PlainArray.putArray_mappedForm]
  rfl

/-- Stored tables are read back. -/
theorem readsBack_write {s : PatternStore} {ps : List ResolvedPattern} {slots : List (List Int64)}
    (hs : s.Stores ps slots) {out out' : Writer} (h : s.write out = .ok out') :
    ∃ suffixSize, ReadsBack out out' read (s.mappedForm suffixSize) := by
  obtain ⟨suffixStrings, hsuffixes, -⟩ := hs.suffixes
  obtain ⟨names, values, hstarts, -⟩ := hs.starts
  obtain ⟨runNames, runValues, hruns⟩ := hs.runs
  obtain ⟨o₁, h₁, h⟩ := Except.bind_eq_ok.1 h
  obtain ⟨o₂, h₂, h⟩ := Except.bind_eq_ok.1 h
  obtain ⟨o₃, h₃, h⟩ := Except.bind_eq_ok.1 h
  obtain ⟨o₄, h₄, h⟩ := Except.bind_eq_ok.1 h
  obtain ⟨o₅, h₅, h⟩ := Except.bind_eq_ok.1 h
  obtain ⟨o₆, h₆, h⟩ := Except.bind_eq_ok.1 h
  obtain ⟨o₇, h₇, h⟩ := Except.bind_eq_ok.1 h
  obtain rfl := Except.ok.inj h
  refine ⟨o₂.position - (o₁.putArray s.grammemeSets).position, ?_⟩
  -- the sections in the order in which they are written
  apply (readsBack_putVersion out version).bind
  apply (readsBack_put _ (0 : Int16)).bind
  apply (readsBack_putCount h₁).bind
  apply (readsBack_putArray o₁ s.grammemeSets).bind
  apply (TrieTable.readsBack_write hsuffixes h₂).bind
  apply (PackedArray.readsBack_write h₃).bind
  apply (readsBack_putVector o₃ (fourFields s.formLayout.headerWidths[0]
    s.formLayout.headerWidths[1] s.runLayout.headerWidths[1] s.runLayout.headerWidths[0])).bind
  apply (readsBack_putCount h₄).bind
  apply (readsBack_putArray o₄ s.frequencies).bind
  apply (StringMap.readsBack_write hstarts h₅).bind
  apply (StringMap.readsBack_write hruns h₆).bind
  apply (PackedArray.readsBack_write h₇).bind
  apply (readsBack_putVector o₇ #v[s.headLayout.headerWidths[3], s.headLayout.headerWidths[2],
    s.headLayout.headerWidths[1], s.headLayout.headerWidths[0], 0]).bind
  -- the layouts are built from their headers when all has been read
  apply (ReadsBack.check (RecordLayout.ofHeader_twoFields hs.formLayout) _).bind
  apply (ReadsBack.check (RecordLayout.ofHeader_twoFields hs.runLayout) _).bind
  apply (ReadsBack.check (RecordLayout.ofHeader_fourFields hs.headLayout) _).bind
  exact ReadsBack.pure _ _

theorem local_read : Reader.Local read := by
  apply (Reader.local_readVersion version).bind
  intro _
  apply (Reader.local_read Int16).bind
  intro _
  apply Reader.local_readCount.bind
  intro setCount
  apply (Reader.local_readPlainArray UInt64 setCount).bind
  intro grammemeSets
  apply TrieTable.local_read.bind
  intro suffixes
  apply PackedArray.local_read.bind
  intro slots
  apply (Reader.local_readVector Int8 4).bind
  intro widths
  apply Reader.local_readCount.bind
  intro frequencyCount
  apply (Reader.local_readPlainArray Int32 frequencyCount).bind
  intro frequencies
  apply StringMap.local_read.bind
  intro starts
  apply StringMap.local_read.bind
  intro runs
  apply PackedArray.local_read.bind
  intro suffixIndex
  apply (Reader.local_readVector Int8 5).bind
  intro headWidths
  apply (Reader.local_check _).bind
  intro formLayout
  apply (Reader.local_check _).bind
  intro runLayout
  exact (Reader.local_check _).bind fun _ => Reader.local_pure _

end PatternStore

end Paradigm
