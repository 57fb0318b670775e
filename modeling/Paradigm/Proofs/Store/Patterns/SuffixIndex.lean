import Mathlib
import Paradigm.Proofs.Store.Patterns
import Paradigm.Proofs.Store.Slots

/-!
# The answers of the index by suffixes

The lists of patterns lie one after the other, and the slot of a suffix has the place and the length
of its list.  Where an index holds these lists, it finds for every suffix the patterns that a search
through the forms of all patterns finds.

## Main definitions

* `SuffixIndex.Lists`: an index lists given patterns
* `PatternStore.Indexes`: the index of tables lists their patterns by the identifiers of their names

## Main results

* `PatternStore.patternIdsForSuffix_eq_ok`: the list of a suffix is read
* `PatternStore.Stores.patternIdsForSuffix_eq_ok`: it lists the patterns that have the suffix
-/

namespace Paradigm

namespace SuffixIndex

variable {index : SuffixIndex} {ps : List (Nat × ResolvedPattern)} {suffix : String} {id : Nat}

/-! ## Lists of patterns -/

theorem mem_suffixesOf : suffix ∈ suffixesOf ps ↔ ∃ p ∈ ps, suffix ∈ p.2.formSuffixes := by
  rw [suffixesOf, mem_eraseReps_mergeSort, List.mem_flatMap]

theorem mem_idsWith :
    id ∈ idsWith ps suffix ↔ ∃ p, (id, p) ∈ ps ∧ suffix ∈ p.formSuffixes := by
  simp only [idsWith, List.mem_mergeSort, List.mem_map, List.mem_filter, List.contains_iff_mem]
  constructor
  · rintro ⟨⟨_, p⟩, hp, rfl⟩
    exact ⟨p, hp⟩
  · rintro ⟨p, hp⟩
    exact ⟨(id, p), hp, rfl⟩

/-- A suffix has a list just if it has patterns in it. -/
theorem idsWith_ne_nil_iff : idsWith ps suffix ≠ [] ↔ suffix ∈ suffixesOf ps := by
  rw [mem_suffixesOf]
  constructor
  · intro hne
    obtain ⟨id, hid⟩ := List.exists_mem_of_ne_nil _ hne
    obtain ⟨p, hp, hsuffix⟩ := mem_idsWith.1 hid
    exact ⟨(id, p), hp, hsuffix⟩
  · rintro ⟨⟨id, p⟩, hp, hsuffix⟩
    exact List.ne_nil_of_mem (mem_idsWith.2 ⟨p, hp, hsuffix⟩)

/-- Patterns under different identifiers are listed once each, in ascending order. -/
theorem pairwise_idsWith (h : (ps.map Prod.fst).Nodup) (suffix : String) :
    (idsWith ps suffix).Pairwise (· < ·) := by
  have hle : (idsWith ps suffix).Pairwise (· ≤ ·) := List.pairwise_mergeSort' (· ≤ ·) _
  have hnodup : (idsWith ps suffix).Nodup :=
    (List.mergeSort_perm _ _).nodup_iff.2 (h.sublist (List.filter_sublist.map _))
  exact (hle.and hnodup).imp fun ⟨hle, hne⟩ => Nat.lt_of_le_of_ne hle hne

/-- The lists are empty only together, when there are no suffixes. -/
theorem flatten_listsOf_ne_nil_iff : (listsOf ps).flatten ≠ [] ↔ ∃ p ∈ ps, p.2.forms ≠ [] := by
  rw [Ne, List.flatten_eq_nil_iff]
  simp only [listsOf, List.forall_mem_map, not_forall]
  constructor
  · rintro ⟨suffix, hsuffix, -⟩
    obtain ⟨p, hp, hforms⟩ := mem_suffixesOf.1 hsuffix
    obtain ⟨form, hform, -⟩ := List.mem_map.1 hforms
    exact ⟨p, hp, List.ne_nil_of_mem hform⟩
  · rintro ⟨p, hp, hne⟩
    obtain ⟨form, hform⟩ := List.exists_mem_of_ne_nil _ hne
    have hsuffix : form.1 ∈ suffixesOf ps :=
      mem_suffixesOf.2 ⟨p, hp, List.mem_map_of_mem hform⟩
    exact ⟨form.1, hsuffix, idsWith_ne_nil_iff.2 hsuffix⟩

theorem getElem?_runRecords {lists : List (List Nat)} {i place : Nat} {ids : List Nat}
    (hids : lists[i]? = some ids) (hplace : (placesFrom 0 lists)[i]? = some place) :
    (runRecords lists)[i]? = some (twoFields (.ofNat ids.length) (.ofNat place)) := by
  have hzip : (lists.zip (placesFrom 0 lists))[i]? = some (ids, place) :=
    List.getElem?_zip_eq_some.2 ⟨hids, hplace⟩
  rw [runRecords, List.getElem?_map, hzip]
  rfl

/-! ## Indexes that list patterns -/

/-- The index lists patterns, which are given with their identifiers.  The slot of a suffix is taken
apart into the length and the place of its list. -/
structure Lists (index : SuffixIndex) (ps : List (Nat × ResolvedPattern)) : Prop where
  runs : ∃ names values slots, index.runs.Stores names values ∧
    (names.zip values).Perm ((suffixesOf ps).zip slots) ∧
    List.Forall₂ (fun record slot => index.layout.decode slot.toUInt32.toUInt64 = .ok record)
      (runRecords (listsOf ps)) slots
  ids : index.ids.Holds ((listsOf ps).flatten.map Int32.ofNat)
  bound : (listsOf ps).flatten.length < addressLimit
  isEmpty_eq : index.ids.isEmpty = (listsOf ps).flatten.isEmpty

namespace Lists

/-- The slot of a suffix leads to its list. -/
theorem exists_slot (h : index.Lists ps) (hsuffix : suffix ∈ suffixesOf ps) : ∃ slot place,
    index.runs.find? suffix = .ok (some slot) ∧
      index.layout.decode slot.toUInt32.toUInt64 =
        .ok (twoFields (.ofNat (idsWith ps suffix).length) (.ofNat place)) ∧
      place + (idsWith ps suffix).length ≤ (listsOf ps).flatten.length ∧
      ((listsOf ps).flatten.drop place).take (idsWith ps suffix).length = idsWith ps suffix := by
  obtain ⟨i, hi⟩ := List.mem_iff_getElem?.1 hsuffix
  have hlist : (listsOf ps)[i]? = some (idsWith ps suffix) := by
    rw [listsOf, List.getElem?_map, hi]
    rfl
  obtain ⟨place, hplace⟩ : ∃ place, (placesFrom 0 (listsOf ps))[i]? = some place :=
    ⟨_, getElem?_placesFrom 0 _ (List.getElem?_eq_some_iff.1 hlist).1⟩
  obtain ⟨names, values, slots, hstores, hperm, hdecode⟩ := h.runs
  -- the slot has the number of the suffix
  obtain ⟨hrecord, hget⟩ := List.getElem?_eq_some_iff.1 (getElem?_runRecords hlist hplace)
  have hslot : i < slots.length := hdecode.length_eq ▸ hrecord
  have hdecoded := hdecode.get hrecord hslot
  rw [List.get_eq_getElem, List.get_eq_getElem, hget] at hdecoded
  have hentry : (suffix, slots[i]) ∈ names.zip values := by
    rw [hperm.mem_iff]
    apply List.mem_of_getElem?
    exact List.getElem?_zip_eq_some.2 ⟨hi, List.getElem?_eq_getElem hslot⟩
  have hfirst : (placesFrom ([] : List Nat).length (listsOf ps))[i]? = some place := hplace
  exact ⟨slots[i], place, hstores.find?_eq hentry, hdecoded, place_add_length_le hlist hfirst,
    take_drop_flatten_of_place hlist hplace⟩

/-- No other string has a slot. -/
theorem find?_eq_none (h : index.Lists ps) (hsuffix : suffix ∉ suffixesOf ps) :
    index.runs.find? suffix = .ok none := by
  obtain ⟨names, values, slots, hstores, hperm, -⟩ := h.runs
  apply hstores.find?_eq_none
  intro hmem
  rw [← List.map_fst_zip hstores.length_eq.le, List.mem_map] at hmem
  obtain ⟨entry, hentry, rfl⟩ := hmem
  exact hsuffix (List.of_mem_zip (hperm.mem_iff.1 hentry)).1

theorem mappedForm (h : index.Lists ps) :
    Lists ⟨index.layout, index.runs.mappedForm, index.ids.mappedForm⟩ ps := by
  obtain ⟨names, values, slots, hstores, hperm, hdecode⟩ := h.runs
  exact {
    runs := ⟨names, values, slots, hstores.mappedForm, hperm, hdecode⟩
    ids := h.ids.mappedForm
    bound := h.bound
    isEmpty_eq := h.isEmpty_eq }

end Lists

end SuffixIndex

namespace PatternStore

variable {s : PatternStore} {ps : List ResolvedPattern}

/-- The index among the tables. -/
def index (s : PatternStore) : SuffixIndex := ⟨s.runLayout, s.runs, s.suffixIndex⟩

/-- Under a suffix, the patterns that have a form with it are listed. -/
theorem patternIdsForSuffix_eq_ok {qs : List (Nat × ResolvedPattern)} (h : s.index.Lists qs)
    (hids : ∀ q ∈ qs, q.1 < 2 ^ 32) (suffix : String) :
    s.patternIdsForSuffix suffix = .ok (SuffixIndex.idsWith qs suffix) := by
  by_cases hsuffix : suffix ∈ SuffixIndex.suffixesOf qs
  · obtain ⟨slot, place, hfind, hdecode, hend, hlist⟩ := h.exists_slot hsuffix
    have hbound := h.bound
    have hfind' : s.runs.find? suffix = .ok (some slot) := hfind
    have hdecode' : s.runLayout.decode slot.toUInt32.toUInt64 = _ := hdecode
    have hrun : s.suffixIndex.run place (SuffixIndex.idsWith qs suffix).length =
        .ok ((((SuffixIndex.listsOf qs).flatten.map Int32.ofNat).drop place).take
          (SuffixIndex.idsWith qs suffix).length) :=
      h.ids.run (by rwa [List.length_map])
    rw [← List.map_drop, ← List.map_take, hlist] at hrun
    rw [patternIdsForSuffix, hfind', Except.ok_bind]
    simp only [hdecode', Except.ok_bind, pairOf_twoFields]
    rw [toNat_ofNat (by omega), toNat_ofNat (by omega), hrun, Except.ok_bind]
    refine congrArg Except.ok ?_
    rw [List.map_map]
    refine (List.map_congr_left ?_).trans (List.map_id _)
    intro id hid
    obtain ⟨p, hp, -⟩ := SuffixIndex.mem_idsWith.1 hid
    exact toNat_toUInt32_ofNat (hids _ hp)
  · have hfind : s.runs.find? suffix = .ok none := h.find?_eq_none hsuffix
    rw [patternIdsForSuffix, hfind, Except.ok_bind,
      not_ne_iff.1 (mt SuffixIndex.idsWith_ne_nil_iff.1 hsuffix)]
    rfl

/-- The index lists the patterns by the identifiers of their names, if there is to be one, and is
empty otherwise. -/
structure Indexes (s : PatternStore) (withIndex : Bool) (ps : List ResolvedPattern) : Prop where
  listed : withIndex = true → ∃ ids,
    List.Forall₂ (fun p id => s.identifier? p.name = some id) ps ids ∧ s.index.Lists (ids.zip ps)
  unlisted : withIndex = false → s.suffixIndex.isEmpty = true

theorem Indexes.mappedForm {withIndex : Bool} (h : s.Indexes withIndex ps) (suffixSize : Nat) :
    (s.mappedForm suffixSize).Indexes withIndex ps where
  listed := fun hwith => by
    obtain ⟨ids, hids, hlists⟩ := h.listed hwith
    exact ⟨ids, hids, hlists.mappedForm⟩
  unlisted := h.unlisted

/-! ## Patterns with a suffix -/

section Listed

variable {ids : List Nat} (hids : List.Forall₂ (fun p id => s.identifier? p.name = some id) ps ids)
include hids

theorem mem_zip_iff {p : ResolvedPattern} {id : Nat} :
    (id, p) ∈ ids.zip ps ↔ p ∈ ps ∧ s.identifier? p.name = some id := by
  constructor
  · intro hmem
    exact ⟨(List.of_mem_zip hmem).2, (List.forall₂_iff_zip.1 hids.flip).2 hmem⟩
  · rintro ⟨hp, hid⟩
    obtain ⟨i, hi, rfl⟩ := List.getElem_of_mem hp
    have hlt : i < ids.length := hids.length_eq ▸ hi
    obtain rfl : ids[i] = id := Option.some.inj ((hids.get hi hlt).symm.trans hid)
    apply List.mem_of_getElem?
    exact List.getElem?_zip_eq_some.2 ⟨List.getElem?_eq_getElem hlt, List.getElem?_eq_getElem hi⟩

theorem nodup_ids {slots : List (List Int64)} (h : s.Stores ps slots) : ids.Nodup := by
  obtain ⟨names, hperm, hnumbering⟩ := h.names
  have hmap : (ps.map ResolvedPattern.name).map s.identifier? = ids.map some := by
    rw [← List.forall₂_eq_eq_eq, List.map_map, List.forall₂_map_left_iff,
      List.forall₂_map_right_iff]
    exact hids
  apply List.Nodup.of_map some
  rw [← hmap]
  refine (hperm.nodup_iff.1 hnumbering.nodup).map_on ?_
  intro name hname other _ heq
  obtain ⟨id, hid⟩ := hnumbering.mem_iff.1 (hperm.mem_iff.2 hname)
  exact hnumbering.eq_of_find? hid (heq ▸ hid)

end Listed

/-- Tables have an index just if the patterns have forms. -/
theorem Indexes.hasSuffixIndex_iff (h : s.Indexes true ps) :
    s.hasSuffixIndex ↔ ∃ p ∈ ps, p.forms ≠ [] := by
  obtain ⟨ids, hids, hlists⟩ := h.listed rfl
  have hempty : s.suffixIndex.isEmpty = _ := hlists.isEmpty_eq
  rw [hasSuffixIndex, hempty, Bool.not_eq_true', List.isEmpty_eq_false_iff,
    SuffixIndex.flatten_listsOf_ne_nil_iff]
  constructor
  · rintro ⟨⟨id, p⟩, hp, hforms⟩
    exact ⟨p, ((mem_zip_iff hids).1 hp).1, hforms⟩
  · rintro ⟨p, hp, hforms⟩
    obtain ⟨i, hi, rfl⟩ := List.getElem_of_mem hp
    have hlt : i < ids.length := hids.length_eq ▸ hi
    exact ⟨(ids[i], ps[i]), (mem_zip_iff hids).2 ⟨hp, hids.get hi hlt⟩, hforms⟩

namespace Stores

variable {slots : List (List Int64)}

/-- Every pattern before the last takes a slot before it. -/
theorem length_le (h : s.Stores ps slots) : ps.length ≤ countLimit := by
  rcases Nat.eq_zero_or_pos ps.length with hzero | hpos
  · rw [hzero]
    exact Nat.zero_le _
  have hlength : slots.length = ps.length := h.slotsOf.length_eq.symm
  have hlast : ps.length - 1 < slots.length := by omega
  have hplace := h.places _ (List.mem_of_getElem? (getElem?_placesFrom 0 slots hlast))
  have hle : ((slots.map List.length).take (ps.length - 1)).length ≤
      ((slots.map List.length).take (ps.length - 1)).sum := by
    apply List.length_le_sum_of_one_le
    intro n hn
    obtain ⟨run, hrun, rfl⟩ := List.mem_map.1 (List.mem_of_mem_take hn)
    obtain ⟨i, hi, rfl⟩ := List.getElem_of_mem hrun
    have hlength : slots[i].length = _ := Scheme.length_slotsOf (h.slotsOf.get (hlength ▸ hi) hi)
    omega
  rw [List.length_take, List.length_map] at hle
  omega

/-- The patterns that are listed under a suffix are those that have a form with it, in ascending
order. -/
theorem patternIdsForSuffix_eq_ok (h : s.Stores ps slots) (hindex : s.Indexes true ps)
    (suffix : String) : ∃ ids, s.patternIdsForSuffix suffix = .ok ids ∧ ids.Pairwise (· < ·) ∧
      ∀ id, id ∈ ids ↔ ∃ p ∈ ps, s.identifier? p.name = some id ∧ suffix ∈ p.formSuffixes := by
  obtain ⟨ids, hids, hlists⟩ := hindex.listed rfl
  have hbound : ∀ q ∈ ids.zip ps, q.1 < 2 ^ 32 := by
    rintro ⟨id, p⟩ hq
    obtain ⟨names, -, hnumbering⟩ := h.names
    have hlt := hnumbering.lt_size ((mem_zip_iff hids).1 hq).2
    have hle := h.length_le
    rw [h.size_eq] at hlt
    rw [countLimit] at hle
    exact hlt.trans_le (hle.trans (by decide))
  refine ⟨_, PatternStore.patternIdsForSuffix_eq_ok hlists hbound suffix, ?_, ?_⟩
  · apply SuffixIndex.pairwise_idsWith
    rw [List.map_fst_zip hids.length_eq.ge]
    exact nodup_ids hids h
  · intro id
    rw [SuffixIndex.mem_idsWith]
    simp only [mem_zip_iff hids, and_assoc]

end Stores

end PatternStore

end Paradigm
