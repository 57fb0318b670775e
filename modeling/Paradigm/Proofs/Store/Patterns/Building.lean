import Mathlib
import Paradigm.Proofs.Store.Patterns.SuffixIndex

/-!
# The tables of given patterns

Tables that were built from patterns stand for these patterns.

## Main results

* `SuffixIndex.lists_of_ofPatterns`: an index of patterns
* `PatternStore.stores_of_ofResolved`: tables of patterns with resolved grammemes
* `PatternStore.ofPatterns?_eq_ok`: the tables of the patterns of a lexicon
-/

namespace Paradigm

/-! ## The index by suffixes -/

namespace SuffixIndex

/-- An index is one that can be stored. -/
structure Storable (index : SuffixIndex) : Prop where
  layout : index.layout.names = PatternStore.runFields ∧ index.layout.WithinWord
  runs : ∃ suffixes lists, index.runs.Stores suffixes lists

theorem storable_of_empty {index : SuffixIndex} (h : empty = .ok index) :
    index.Storable ∧ index.ids.isEmpty = true := by
  obtain ⟨layout, hlayout, h⟩ := Except.bind_eq_ok.1 h
  obtain ⟨runs, hruns, h⟩ := Except.bind_eq_ok.1 h
  obtain ⟨ids, hids, h⟩ := Except.bind_eq_ok.1 h
  obtain rfl := Except.ok.inj h
  obtain ⟨hnames, -, hwithin⟩ := RecordLayout.of_ofWidths hlayout
  obtain ⟨suffixes, lists, hstores, -⟩ := StringMap.stores_of_ofList hruns
  exact ⟨⟨⟨hnames, hwithin⟩, suffixes, lists, hstores⟩, PackedArray.isEmpty_ofList hids⟩

/-- An index that was built lists the patterns. -/
theorem lists_of_ofPatterns {ps : List (Nat × ResolvedPattern)} {index : SuffixIndex}
    (h : ofPatterns ps = .ok index) : index.Storable ∧ index.Lists ps := by
  obtain ⟨layout, hlayout, h⟩ := Except.bind_eq_ok.1 h
  obtain ⟨u, hcheck, h⟩ := Except.bind_eq_ok.1 h
  obtain ⟨slots, hslots, h⟩ := Except.bind_eq_ok.1 h
  obtain ⟨runs, hruns, h⟩ := Except.bind_eq_ok.1 h
  obtain ⟨ids, hids, h⟩ := Except.bind_eq_ok.1 h
  obtain rfl := Except.ok.inj h
  rw [liftM_eq_ok] at hlayout hslots hruns hids
  have hfitting := RecordLayout.names_of_fitting hlayout
  obtain ⟨names, values, hstores, hperm⟩ := StringMap.stores_of_ofList hruns
  refine ⟨⟨hfitting, names, values, hstores⟩, ?_⟩
  constructor
  case runs =>
    have hspan := span_le_of_checkSlotWidth hfitting.2 hcheck
    exact ⟨names, values, slots, hstores, hperm, decode_of_encodeSlots hspan hslots⟩
  case ids => exact PackedArray.holds_ofList hids
  case bound =>
    have hlength := PackedArray.lt_addressLimit_of_ofList hids
    rwa [List.length_map] at hlength
  case isEmpty_eq => rw [PackedArray.isEmpty_ofList hids, List.isEmpty_map]

end SuffixIndex

/-! ## The tables -/

namespace PatternStore

/-- Patterns that were laid out have their slots one after the other, from places that are numbers
of 31 bits. -/
theorem Scheme.layOut_eq_ok {c : Scheme} {place : Nat} {ps : List ResolvedPattern}
    {laidOut : List (Int32 × List Int64)} (h : c.layOut place ps = .ok laidOut) :
    List.Forall₂ (fun p run => c.slotsOf p = .ok run) ps (laidOut.map Prod.snd) ∧
      laidOut.map Prod.fst = (placesFrom place (laidOut.map Prod.snd)).map Int32.ofNat ∧
      ∀ q ∈ placesFrom place (laidOut.map Prod.snd), q < countLimit := by
  induction ps generalizing place laidOut with
  | nil =>
    obtain rfl := Except.ok.inj h
    exact ⟨.nil, rfl, nofun⟩
  | cons p ps ih =>
    rw [layOut] at h
    by_cases hplace : countLimit ≤ place
    · rw [if_pos hplace] at h
      cases h
    rw [if_neg hplace] at h
    obtain ⟨slots, hslots, h⟩ := Except.bind_eq_ok.1 h
    obtain ⟨rest, hrest, h⟩ := Except.bind_eq_ok.1 h
    obtain rfl := Except.ok.inj h
    rw [liftM_eq_ok] at hslots
    obtain ⟨hruns, hplaces, hlimit⟩ := ih hrest
    refine ⟨.cons hslots hruns, ?_, ?_⟩
    · rw [List.map_cons, List.map_cons, placesFrom, List.map_cons, hplaces]
    · rw [List.map_cons, placesFrom, List.forall_mem_cons]
      exact ⟨Nat.not_le.1 hplace, hlimit⟩

/-- What a scheme for patterns consists of. -/
theorem Scheme.ofPatterns_eq_ok {c : Scheme} {ps : List ResolvedPattern}
    (h : ofPatterns ps = .ok c) :
    c.sets = setsOf ps ∧ c.frequencies = frequenciesOf ps ∧
      TrieTable.ofList (suffixesOf ps) = .ok c.suffixes ∧
      headLayoutFor (setsOf ps) (frequenciesOf ps) ps = .ok c.headLayout ∧
      formLayoutFor (setsOf ps) c.suffixes ps = .ok c.formLayout := by
  obtain ⟨suffixes, hsuffixes, h⟩ := Except.bind_eq_ok.1 h
  obtain ⟨headLayout, hhead, h⟩ := Except.bind_eq_ok.1 h
  obtain ⟨formLayout, hform, h⟩ := Except.bind_eq_ok.1 h
  obtain rfl := Except.ok.inj h
  exact ⟨rfl, rfl, hsuffixes, hhead, hform⟩

/-- The identifiers of patterns are those of their names. -/
theorem idsOf_eq_ok {starts : StringMap Int32} {ps : List ResolvedPattern} {ids : List Nat}
    (h : idsOf starts ps = .ok ids) :
    List.Forall₂ (fun p id => starts.keyId? p.name = some id) ps ids := by
  refine (mapM_eq_ok_iff.1 h).imp ?_
  intro p id hid
  split at hid
  · rename_i found hfound
    rw [hfound, Except.ok.inj hid]
  · cases hid

/-- An index can be stored; if there is to be one, it lists the patterns by their identifiers, and
otherwise it is empty. -/
theorem indexOf_eq_ok {starts : StringMap Int32} {ps : List ResolvedPattern} {withIndex : Bool}
    {index : SuffixIndex} (h : indexOf starts ps withIndex = .ok index) :
    index.Storable ∧
      (withIndex = true → ∃ ids,
        List.Forall₂ (fun p id => starts.keyId? p.name = some id) ps ids ∧
          index.Lists (ids.zip ps)) ∧
      (withIndex = false → index.ids.isEmpty = true) := by
  cases withIndex with
  | true =>
    obtain ⟨ids, hids, h⟩ := Except.bind_eq_ok.1 h
    obtain ⟨hstorable, hlists⟩ := SuffixIndex.lists_of_ofPatterns h
    exact ⟨hstorable, fun _ => ⟨ids, idsOf_eq_ok (liftM_eq_ok.1 hids), hlists⟩, nofun⟩
  | false =>
    obtain ⟨hstorable, hempty⟩ := SuffixIndex.storable_of_empty (liftM_eq_ok.1 h)
    exact ⟨hstorable, nofun, fun _ => hempty⟩

/-- Tables that were built from patterns stand for them, and their index lists them. -/
theorem stores_of_ofResolved {ps : List ResolvedPattern} {withIndex : Bool} {s : PatternStore}
    (h : ofResolved ps withIndex = .ok s) :
    (∃ slots, s.Stores ps slots) ∧ s.Indexes withIndex ps := by
  obtain ⟨c, hscheme, h⟩ := Except.bind_eq_ok.1 h
  obtain ⟨laidOut, hlaidOut, h⟩ := Except.bind_eq_ok.1 h
  obtain ⟨starts, hstarts, h⟩ := Except.bind_eq_ok.1 h
  obtain ⟨index, hindex, h⟩ := Except.bind_eq_ok.1 h
  obtain ⟨array, harray, h⟩ := Except.bind_eq_ok.1 h
  obtain rfl := Except.ok.inj h
  rw [liftM_eq_ok] at hscheme hstarts harray
  obtain ⟨hsets, hfrequencies, hsuffixes, hhead, hform⟩ := Scheme.ofPatterns_eq_ok hscheme
  obtain ⟨hslots, hplaces, hlimit⟩ := Scheme.layOut_eq_ok hlaidOut
  obtain ⟨hstorable, hlisted, hunlisted⟩ := indexOf_eq_ok hindex
  obtain ⟨names, values, hstores, hperm⟩ := StringMap.stores_of_ofList hstarts
  have htable := TrieTable.stores_of_ofList hsuffixes
  refine ⟨⟨laidOut.map Prod.snd, ?_⟩, hlisted, hunlisted⟩
  constructor
  case sets => exact hsets
  case frequencies => exact hfrequencies
  case suffixes => exact ⟨_, htable, fun t ht => mem_numberedStrings.1 ht⟩
  case slotsOf =>
    -- the scheme of the tables is the one that the slots were made with
    obtain ⟨sets, frequencies, suffixes, headLayout, formLayout⟩ := c
    obtain rfl : sets = _ := hsets
    obtain rfl : frequencies = _ := hfrequencies
    exact hslots
  case holds => exact PackedArray.holds_ofList harray
  case bound => exact PackedArray.lt_addressLimit_of_ofList harray
  case headLayout => exact RecordLayout.names_of_fitting hhead
  case formLayout => exact RecordLayout.names_of_fitting hform
  case runLayout => exact hstorable.layout
  case starts => exact ⟨names, values, hstores, hplaces ▸ hperm⟩
  case places => exact hlimit
  case runs => exact hstorable.runs

/-- The tables of a lexicon stand for its patterns; there are none without patterns. -/
theorem ofPatterns?_eq_ok {grammemes : SortedTable} {patterns : List Lexicon.Pattern}
    {withIndex : Bool} {o : Option PatternStore}
    (h : ofPatterns? grammemes patterns withIndex = .ok o) :
    (patterns = [] ∧ o = none) ∨ ∃ ps s slots, patterns ≠ [] ∧ o = some s ∧
      ResolvedPattern.ofPatterns grammemes patterns = .ok ps ∧ s.Stores ps slots ∧
      s.Indexes withIndex ps := by
  unfold ofPatterns? at h
  split at h
  · rename_i hempty
    exact Or.inl ⟨List.isEmpty_iff.1 hempty, (Except.ok.inj h).symm⟩
  · rename_i hempty
    right
    dsimp only at h
    split at h
    · cases h
    obtain ⟨ps, hps, h⟩ := Except.bind_eq_ok.1 h
    obtain ⟨s, hs, h⟩ := Except.bind_eq_ok.1 h
    obtain rfl := Except.ok.inj h
    obtain ⟨⟨slots, hstores⟩, hindex⟩ := stores_of_ofResolved hs
    exact ⟨ps, s, slots, fun hnil => hempty (List.isEmpty_iff.2 hnil), rfl, hps, hstores, hindex⟩

end PatternStore

end Paradigm
