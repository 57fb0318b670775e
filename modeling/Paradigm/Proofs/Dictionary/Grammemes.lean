import Mathlib
import Paradigm.Proofs.Dictionary
import Paradigm.Proofs.Table.SortedTable.Building

/-!
# Names and sets of grammemes

The grammemes of a dictionary have names.  A list of names leads to the set of their bits, and a set
leads to the names of its bits, the lowest first.  The bits are numbered in the order of the names,
so that the names come back in order.

## Main results

* `WordStore.Stores.mem_grammemeNames`, `WordStore.Stores.pairwise_grammemeNames`: the names of a
  set
* `Dictionary.resolve_eq_error`: names that are not known
* `Dictionary.load_compile_grammemes`: names and sets correspond
-/

namespace Paradigm

/-! ## Names of sets -/

namespace WordStore

theorem grammemeName?_single (s : WordStore) {id : Nat} (h : id < Mask.capacity) :
    s.grammemeName? (.single id) = (s.grammemes.string id).toOption := by
  rw [grammemeName?, Mask.identifier?_single h]
  rfl

/-- The names of a set are those of its members. -/
theorem grammemeNames_eq (s : WordStore) (mask : Mask) :
    s.grammemeNames mask = mask.members.filterMap fun id => (s.grammemes.string id).toOption := by
  rw [grammemeNames, Mask.singles_eq_map_members, List.filterMap_map]
  apply List.filterMap_congr
  intro id hid
  exact s.grammemeName?_single (Mask.lt_of_mem_members hid)

namespace Stores

variable {s : WordStore} {l : Lexicon} {maps : List PropertyMap} {slots : List (List Int32)}
  {data : List UInt64}

/-- The members of a set are places among the names of all grammemes. -/
theorem grammemeNames_eq_filterMap (h : s.Stores l maps slots data) (mask : Mask) :
    s.grammemeNames mask = mask.members.filterMap ((sortedStrings l.grammemeNames)[·]?) := by
  simp only [grammemeNames_eq, h.grammemes.stores.toOption_string]

/-- A set has the names whose bits it has. -/
theorem mem_grammemeNames (h : s.Stores l maps slots data) {mask : Mask} {name : String} :
    name ∈ s.grammemeNames mask ↔
      name ∈ l.grammemeNames ∧ mask.toNat.testBit (l.grammemeRank name) := by
  rw [h.grammemeNames_eq_filterMap, List.mem_filterMap]
  simp only [Mask.mem_members, ← h.grammemes.stores.identifier?_eq_some_iff]
  constructor
  · rintro ⟨id, hbit, hid⟩
    have hname := h.grammemes.mem_of_identifier? hid
    obtain rfl := Option.some.inj ((h.grammemes.identifier?_eq hname).symm.trans hid)
    exact ⟨hname, hbit⟩
  · rintro ⟨hname, hbit⟩
    exact ⟨_, hbit, h.grammemes.identifier?_eq hname⟩

/-- The names of a set come in the order of their code units, once each. -/
theorem pairwise_grammemeNames (h : s.Stores l maps slots data) (mask : Mask) :
    (s.grammemeNames mask).Pairwise fun name other => Text.units name < Text.units other := by
  rw [h.grammemeNames_eq_filterMap, List.pairwise_filterMap]
  refine mask.pairwise_members.imp fun hij name hname other hother => ?_
  exact h.grammemes.stores.units_lt hname hother hij

/-- Names that are not those of grammemes are not known. -/
theorem grammeme?_eq_none (h : s.Stores l maps slots data) {name : String}
    (hname : name ∉ l.grammemeNames) : s.grammeme? name = none := by
  have hnone : s.grammemes.identifier? name = none :=
    h.grammemes.stores.numbers.find?_eq_none (mt mem_sortedStrings.1 hname)
  rw [grammeme?, hnone]
  rfl

theorem isNone_grammeme? (h : s.Stores l maps slots data) (name : String) :
    (s.grammeme? name).isNone = decide (name ∉ l.grammemeNames) := by
  by_cases hname : name ∈ l.grammemeNames
  · rw [h.grammeme?_eq hname, decide_eq_false (not_not_intro hname)]
    rfl
  · rw [h.grammeme?_eq_none hname, decide_eq_true hname]
    rfl

end Stores

end WordStore

/-! ## Sets of names -/

namespace Dictionary

section

variable {d : Dictionary} {l : Lexicon} {maps : List PropertyMap} {slots : List (List Int32)}
  {data : List UInt64} {names : List String}

/-- Names that are not known are reported, all of them and as they are listed. -/
theorem resolve_eq_error (h : d.store.Stores l maps slots data)
    (hnames : ¬ names ⊆ l.grammemeNames) :
    d.resolve names = .error (.unknownProperties (names.filter (· ∉ l.grammemeNames))) := by
  have hunknown : names.filter (· ∉ l.grammemeNames) ≠ [] := by
    rw [Ne, List.filter_eq_nil_iff]
    intro hall
    exact hnames fun name hname => by simpa using hall name hname
  -- which case of the definition applies is settled by `hunknown`
  simp only [resolve, h.isNone_grammeme?]

/-- The names of the set of some names are these names. -/
theorem mem_grammemeNames_maskOf (h : d.store.Stores l maps slots data)
    (hnames : names ⊆ l.grammemeNames) {name : String} :
    name ∈ d.store.grammemeNames (l.maskOf names) ↔ name ∈ names := by
  rw [h.mem_grammemeNames, h.grammemes.testBit_maskOf hnames]
  constructor
  · rintro ⟨hname, hrank⟩
    exact (h.grammemes.mem_ranks hnames hname).1 hrank
  · intro hname
    exact ⟨hnames hname, List.mem_map_of_mem hname⟩

/-- The set of the names of a set has its bits that stand for grammemes. -/
theorem maskOf_grammemeNames (h : d.store.Stores l maps slots data) (mask : Mask) :
    l.maskOf (d.store.grammemeNames mask) = mask &&& l.maskOf l.grammemeNames := by
  have hsub : d.store.grammemeNames mask ⊆ l.grammemeNames := fun name hname =>
    (h.mem_grammemeNames.1 hname).1
  apply Mask.eq_of_testBit
  intro i
  rw [UInt64.toNat_and, Nat.testBit_and, Bool.eq_iff_iff, Bool.and_eq_true,
    h.grammemes.testBit_maskOf hsub, h.grammemes.testBit_maskOf (List.Subset.refl _), List.mem_map,
    List.mem_map]
  simp only [h.mem_grammemeNames]
  constructor
  · rintro ⟨name, ⟨hname, hbit⟩, rfl⟩
    exact ⟨hbit, name, hname, rfl⟩
  · rintro ⟨hbit, name, hname, rfl⟩
    exact ⟨name, ⟨hname, hbit⟩, rfl⟩

end

/-- **Names and sets of grammemes correspond in every compiled lexicon.**  The set of a list of
names leads back to these names, in the order of their code units and once each.  The names of any
set lead to its bits that stand for grammemes, which are as many of the lowest bits as the lexicon
names grammemes.  Only names that the lexicon does not have are refused, and all of them are
reported, in the order of the list and with its repetitions. -/
theorem load_compile_grammemes {l : Lexicon} {image : View} (h : l.compile = .ok image) :
    ∃ d, Dictionary.load image = .ok d ∧
      (∀ names, names ⊆ l.grammemeNames → ∃ mask, d.resolve names = .ok mask ∧
        (d.store.grammemeNames mask).Pairwise (fun name other =>
          Text.units name < Text.units other) ∧
        ∀ name, name ∈ d.store.grammemeNames mask ↔ name ∈ names) ∧
      (∀ mask, ∃ restricted, d.resolve (d.store.grammemeNames mask) = .ok restricted ∧
        ∀ i, restricted.toNat.testBit i ↔
          mask.toNat.testBit i ∧ i < l.grammemeNames.toFinset.card) ∧
      (∀ names, (∃ e, d.resolve names = .error e) ↔ ∃ name ∈ names, name ∉ l.grammemeNames) ∧
      ∀ names e, d.resolve names = .error e →
        e = .unknownProperties (names.filter (· ∉ l.grammemeNames)) := by
  obtain ⟨d, maps, slots, data, hload, hstores⟩ := stores_of_compile h
  refine ⟨d, hload, ?_, ?_, ?_, ?_⟩
  · intro names hnames
    exact ⟨_, resolve_eq_ok hstores hnames, hstores.pairwise_grammemeNames _,
      fun name => mem_grammemeNames_maskOf hstores hnames⟩
  · intro mask
    refine ⟨_, resolve_eq_ok hstores fun name hname => (hstores.mem_grammemeNames.1 hname).1, ?_⟩
    intro i
    rw [maskOf_grammemeNames hstores, UInt64.toNat_and, Nat.testBit_and, Bool.and_eq_true,
      hstores.grammemes.testBit_maskOf_all]
  · intro names
    constructor
    · rintro ⟨e, he⟩
      by_contra! hknown
      rw [resolve_eq_ok hstores hknown] at he
      cases he
    · rintro ⟨name, hname, hunknown⟩
      exact ⟨_, resolve_eq_error hstores fun hsub => hunknown (hsub hname)⟩
  · intro names e he
    by_cases hnames : names ⊆ l.grammemeNames
    · rw [resolve_eq_ok hstores hnames] at he
      cases he
    · exact Except.error.inj (he.symm.trans (resolve_eq_error hstores hnames))

theorem load_compile_grammemes_cat : ∃ image d mask, catLexicon.compile = .ok image ∧
    Dictionary.load image = .ok d ∧ d.resolve ["singular", "noun", "singular"] = .ok mask ∧
      d.store.grammemeNames mask = ["noun", "singular"] ∧
      d.resolve (d.store.grammemeNames 255) = .ok 7 ∧
      d.resolve ["verb", "noun", "adverb", "verb"] =
        .error (.unknownProperties ["verb", "adverb", "verb"]) := by
  obtain ⟨image, himage⟩ := exists_compile_catLexicon
  obtain ⟨d, hload, hresolves, hmasks, hfails, herror⟩ := load_compile_grammemes himage
  obtain ⟨mask, hmask, hsorted, hmem⟩ := hresolves ["singular", "noun", "singular"] (by decide)
  refine ⟨image, d, mask, himage, hload, hmask, ?_, ?_, ?_⟩
  · apply eq_of_pairwise_of_mem_iff (fun _ _ => lt_asymm) hsorted (by decide +kernel)
    intro name
    rw [hmem]
    simp [or_comm, or_left_comm]
  · obtain ⟨restricted, hrestricted, hbits⟩ := hmasks 255
    have hcard : catLexicon.grammemeNames.toFinset.card = 3 := by decide +kernel
    rw [hrestricted]
    congr 1
    apply Mask.eq_of_testBit
    intro i
    rw [Bool.eq_iff_iff, hbits, hcard]
    show (2 ^ 8 - 1).testBit i = true ∧ i < 3 ↔ (2 ^ 3 - 1).testBit i = true
    rw [Nat.testBit_two_pow_sub_one, Nat.testBit_two_pow_sub_one, decide_eq_true_iff,
      decide_eq_true_iff]
    omega
  · obtain ⟨e, he⟩ := (hfails ["verb", "noun", "adverb", "verb"]).2 ⟨"verb", by decide⟩
    rw [he, herror _ e he]
    decide +kernel

end Dictionary

end Paradigm
