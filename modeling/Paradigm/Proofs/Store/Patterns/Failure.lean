import Mathlib
import Paradigm.Proofs.Storage.RecordLayout.Fitting
import Paradigm.Proofs.Store.Patterns.Building
import Paradigm.Proofs.Table.Failure

/-!
# Failures to build the tables of patterns

The names that are looked up again are in the tables that were built from them, and the layouts of
records are wide enough for the longest lists and for all numbers of sets, frequencies and suffixes.
Patterns with distinct names are therefore refused only for want of room, or because their slots are
too many or too narrow.

## Main results

* `ofNat_le_largest`: none of some numbers is above the greatest of them

* `SuffixIndex.length_flatten_listsOf_le`: the lists of an index together
* `PatternStore.Scheme.exists_slotsOf`: every pattern of a scheme has slots
* `PatternStore.failsOnly_ofResolved`: tables of patterns with resolved grammemes
* `PatternStore.failsOnly_ofPatterns?`: the tables of the patterns of a lexicon
-/

namespace Paradigm

variable {l : Lexicon}

/-! ## Slots -/

theorem failsOnly_checkSlotWidth {n : Nat} (what : String) {layout : RecordLayout n}
    (hl : layout.WithinWord) : FailsOnly l.Refusal (checkSlotWidth what layout) := by
  rw [checkSlotWidth_eq what hl]
  split
  · exact .error (.fault nofun)
  · exact .ok ()

theorem failsOnly_encodeSlots {P : StorageError → Prop} {n : Nat} {layout : RecordLayout n}
    {records : List (Vector UInt64 n)}
    (h : ∀ record ∈ records, ∃ raw, layout.encode record = .ok raw) :
    FailsOnly P (encodeSlots layout records) :=
  (FailsOnly.mapM fun record hrecord => .of_exists (h record hrecord)).bind fun _ _ => .ok _

/-! ## Greatest numbers -/

theorem foldl_max_eq (ns : List Nat) : ns.foldl max 0 = ns.foldr max ⊥ :=
  List.foldl_eq_foldr

theorem ofNat_le_ofNat {a b : Nat} (h : a ≤ b) (hb : b < addressLimit) :
    UInt64.ofNat a ≤ UInt64.ofNat b := by
  rw [UInt64.le_iff_toNat_le, toNat_ofNat (h.trans_lt hb), toNat_ofNat hb]
  exact h

/-- None of some machine words is above the greatest of them. -/
theorem ofNat_le_largest {ns : List Nat} {n : Nat} (h : ∀ m ∈ ns, m < addressLimit) (hn : n ∈ ns) :
    UInt64.ofNat n ≤ largest ns := by
  rw [largest, foldl_max_eq]
  apply ofNat_le_ofNat (List.le_max_of_le hn le_rfl)
  apply Nat.lt_of_le_of_lt (List.max_le_of_forall_le _ (addressLimit - 1) ?_) (by decide)
  exact fun m hm => Nat.le_sub_one_of_lt (h m hm)

/-- The greatest value of a function on a list is not below its value on any element. -/
theorem ofNat_le_largest_map {α : Type} {f : α → Nat} {as : List α}
    (h : ∀ a ∈ as, f a < addressLimit) {a : α} (ha : a ∈ as) :
    UInt64.ofNat (f a) ≤ largest (as.map f) :=
  ofNat_le_largest (List.forall_mem_map.2 h) (List.mem_map_of_mem ha)

/-! ## The index by suffixes -/

namespace SuffixIndex

variable {ps : List (Nat × ResolvedPattern)}

theorem nodup_suffixesOf (ps : List (Nat × ResolvedPattern)) : (suffixesOf ps).Nodup := by
  have h : (suffixesOf ps).Pairwise fun a b => decide (a ≤ b) ∧ a ≠ b := by
    apply pairwise_eraseReps_mergeSort
    · intro a b c hab hbc
      exact decide_eq_true ((of_decide_eq_true hab).trans (of_decide_eq_true hbc))
    · intro a b
      rw [Bool.or_eq_true, decide_eq_true_iff, decide_eq_true_iff]
      exact le_total a b
    · intro a b hab hba
      exact le_antisymm (of_decide_eq_true hab) (of_decide_eq_true hba)
  exact List.nodup_iff_pairwise_ne.2 (h.imp And.right)

theorem length_suffixesOf_le (ps : List (Nat × ResolvedPattern)) :
    (suffixesOf ps).length ≤ (ps.flatMap (·.2.formSuffixes)).length :=
  (length_eraseReps_le _).trans (List.length_mergeSort _).le

theorem sum_map_ite_eq_countP {α : Type} (p : α → Bool) (as : List α) :
    (as.map fun a => if p a then 1 else 0).sum = as.countP p := by
  induction as with
  | nil => rfl
  | cons a as ih => rw [List.map_cons, List.sum_cons, ih, List.countP_cons, Nat.add_comm]

/-- Of different suffixes, no more belong to a pattern than it has forms. -/
theorem sum_countP_contains_le {suffixes : List String} (h : suffixes.Nodup)
    (ps : List (Nat × ResolvedPattern)) :
    (suffixes.map fun s => ps.countP (·.2.formSuffixes.contains s)).sum ≤
      (ps.flatMap (·.2.formSuffixes)).length := by
  induction ps with
  | nil => simp
  | cons p ps ih =>
    have hown : (suffixes.filter p.2.formSuffixes.contains).length ≤ p.2.formSuffixes.length := by
      apply List.Subperm.length_le
      apply List.subperm_of_subset (h.filter _)
      intro s hs
      exact List.contains_iff_mem.1 (List.mem_filter.1 hs).2
    rw [← List.countP_eq_length_filter] at hown
    simp only [List.countP_cons, List.sum_map_add, sum_map_ite_eq_countP, List.flatMap_cons,
      List.length_append]
    omega

/-- The lists of patterns have no more elements together than the patterns have forms. -/
theorem length_flatten_listsOf_le (ps : List (Nat × ResolvedPattern)) :
    (listsOf ps).flatten.length ≤ (ps.flatMap (·.2.formSuffixes)).length := by
  have hlengths : (listsOf ps).map List.length =
      (suffixesOf ps).map fun s => ps.countP (·.2.formSuffixes.contains s) := by
    rw [listsOf, List.map_map]
    apply List.map_congr_left
    intro s _
    rw [Function.comp_apply, idsWith, List.length_mergeSort, List.length_map,
      List.countP_eq_length_filter]
  rw [List.length_flatten, hlengths]
  exact sum_countP_contains_le (nodup_suffixesOf ps) ps

theorem failsOnly_empty : FailsOnly NoRoom empty := by
  refine (RecordLayout.failsOnly_ofWidths (by decide)).bind fun _ _ => ?_
  refine (FailsOnly.of_exists (StringMap.exists_ofList_zip .nil (by simp) [])).bind fun _ _ => ?_
  exact (FailsOnly.of_exists (PackedArray.exists_ofList_of_lt (by simp))).bind fun _ _ => .ok _

/-- An index of patterns with few forms is refused only because its slots are too narrow. -/
theorem failsOnly_ofPatterns (h : (ps.flatMap (·.2.formSuffixes)).length < 2 ^ 58) :
    FailsOnly l.Refusal (ofPatterns ps) := by
  refine (RecordLayout.failsOnly_fittingAll (by decide) _).refusal.bind fun layout hlayout => ?_
  rw [liftM_eq_ok] at hlayout
  refine (failsOnly_checkSlotWidth _ (RecordLayout.names_of_fitting hlayout).2).bind
    fun _ _ => ?_
  refine (failsOnly_encodeSlots fun record hrecord => ?_).refusal.bind fun slots hslots => ?_
  · exact RecordLayout.exists_encode_of_mem hlayout hrecord
  refine (FailsOnly.of_exists ?_).refusal.bind fun runs _ => ?_
  · exact StringMap.exists_ofList_zip (nodup_suffixesOf ps) ((length_suffixesOf_le ps).trans_lt h) _
  refine (FailsOnly.of_exists ?_).refusal.bind fun ids _ => .ok _
  apply PackedArray.exists_ofList_of_lt
  rw [List.length_map]
  exact (length_flatten_listsOf_le ps).trans_lt h

end SuffixIndex

/-! ## The tables -/

namespace PatternStore

variable {ps : List ResolvedPattern}

/-- What a pattern has is among what the patterns have together. -/
structure Few (ps : List ResolvedPattern) : Prop where
  count : ps.length + (suffixesOf ps).length < 2 ^ 58

namespace Few

variable {p : ResolvedPattern}

theorem length_suffixes_le (hp : p ∈ ps) :
    p.lemmaSuffixes.length + p.forms.length ≤ (suffixesOf ps).length := by
  rw [suffixesOf, List.length_flatMap]
  refine le_trans (le_of_eq ?_) (List.single_le_sum (fun _ _ => Nat.zero_le _) _
    (List.mem_map_of_mem hp))
  rw [List.length_append, ResolvedPattern.formSuffixes, List.length_map]

theorem length_lt (h : Few ps) (hp : p ∈ ps) :
    p.forms.length < addressLimit ∧ p.lemmaSuffixes.length < addressLimit := by
  have hcount := h.count
  have hle := length_suffixes_le hp
  rw [addressLimit]
  omega

theorem idxOf_set_lt (h : Few ps) (set : Mask) : (setsOf ps).idxOf set < addressLimit := by
  have hcount := h.count
  have hsets : (setsOf ps).length ≤ _ := length_eraseDups_le _
  have hforms := length_formSets_le ps
  rw [List.length_append, List.length_map] at hsets
  have hidx : (setsOf ps).idxOf set ≤ _ := List.idxOf_le_length
  rw [addressLimit]
  omega

theorem idxOf_frequency_lt (h : Few ps) (frequency : Int32) :
    (frequenciesOf ps).idxOf frequency < addressLimit := by
  have hcount := h.count
  have hfrequencies : (frequenciesOf ps).length ≤ _ := length_eraseReps_le _
  rw [List.length_mergeSort, List.length_map] at hfrequencies
  have hidx : (frequenciesOf ps).idxOf frequency ≤ _ := List.idxOf_le_length
  rw [addressLimit]
  omega

end Few

namespace Scheme

variable {c : Scheme} {p : ResolvedPattern}

theorem failsOnly_ofPatterns (ps : List ResolvedPattern) : FailsOnly NoRoom (ofPatterns ps) := by
  refine (TrieTable.failsOnly_ofList _).bind fun _ _ => ?_
  refine (RecordLayout.failsOnly_fitting (by decide) _).bind fun _ _ => ?_
  exact (RecordLayout.failsOnly_fitting (by decide) _).bind fun _ _ => .ok _

/-- The head of a pattern is put into a word: no list is longer than the longest, and no number
above the greatest. -/
theorem exists_encode_headRecord (h : Few ps) (hc : ofPatterns ps = .ok c) (hp : p ∈ ps) :
    ∃ raw, c.headLayout.encode (c.headRecord p) = .ok raw := by
  obtain ⟨hsets, hfrequencies, -, hhead, -⟩ := ofPatterns_eq_ok hc
  rw [headRecord, hsets, hfrequencies]
  apply RecordLayout.exists_encode hhead
  intro i hi
  rcases i with _ | _ | _ | _ | i
  · exact ofNat_le_largest_map (fun q hq => (h.length_lt hq).1) hp
  · exact ofNat_le_largest_map (fun q hq => (h.length_lt hq).2) hp
  · exact ofNat_le_largest_map (fun q _ => h.idxOf_set_lt q.partsOfSpeech) hp
  · exact ofNat_le_largest_map (fun q _ => h.idxOf_frequency_lt q.frequency) hp
  · omega

/-- A suffix of a pattern is in the table, under a number below the number of suffixes. -/
theorem exists_require (hc : ofPatterns ps = .ok c) (hp : p ∈ ps) {suffix : String}
    (hsuffix : suffix ∈ p.lemmaSuffixes ++ p.formSuffixes) :
    ∃ id, StringTable.require c.suffixes suffix = .ok id ∧ id < c.suffixes.size ∧
      c.suffixes.size ≤ (suffixesOf ps).length := by
  obtain ⟨-, -, hsuffixes, -, -⟩ := ofPatterns_eq_ok hc
  have hstores := TrieTable.stores_of_ofList hsuffixes
  have hnumbers := TrieTable.numbers hstores
  obtain ⟨id, hid⟩ := StringTable.exists_require hnumbers
    (mem_numberedStrings.2 (List.mem_flatMap.2 ⟨p, hp, hsuffix⟩))
  refine ⟨id, hid, hnumbers.lt_size (StringTable.require_eq_ok.1 hid), ?_⟩
  show c.suffixes.trie.size ≤ _
  rw [hstores.size_eq]
  exact (List.subperm_of_subset hstores.nodup fun t ht => mem_numberedStrings.1 ht).length_le

/-- A form is put into a word: its set has no number above the greatest, and its suffix none beyond
the table. -/
theorem exists_formSlot (h : Few ps) (hc : ofPatterns ps = .ok c) (hp : p ∈ ps)
    {form : String × Mask} (hform : form ∈ p.forms) : ∃ slot, c.formSlot form = .ok slot := by
  obtain ⟨id, hid, hlt, hsize⟩ := exists_require hc hp
    (List.mem_append_right _ (List.mem_map_of_mem (f := Prod.fst) hform))
  obtain ⟨hsets, -, -, -, hlayout⟩ := ofPatterns_eq_ok hc
  have hcount := h.count
  have hset : form.2 ∈ ps.flatMap ResolvedPattern.formSets :=
    List.mem_flatMap.2 ⟨p, hp, List.mem_map_of_mem hform⟩
  obtain ⟨raw, hraw⟩ : ∃ raw, c.formLayout.encode (c.formRecord form.2 id) = .ok raw := by
    rw [formRecord, hsets]
    apply RecordLayout.exists_encode hlayout
    intro i hi
    rcases i with _ | _ | i
    · exact ofNat_le_largest_map (fun set _ => h.idxOf_set_lt set) hset
    · exact ofNat_le_ofNat (by omega) (by rw [addressLimit]; omega)
    · omega
  exact ⟨raw.toInt64, by rw [formSlot, hid, Except.ok_bind, hraw]; rfl⟩

/-- Every pattern of a scheme has slots. -/
theorem exists_slotsOf (h : Few ps) (hc : ofPatterns ps = .ok c) (hp : p ∈ ps) :
    ∃ slots, c.slotsOf p = .ok slots := by
  obtain ⟨head, hhead⟩ := exists_encode_headRecord h hc hp
  have hlemmas : FailsOnly (fun _ => False) (p.lemmaSuffixes.mapM c.lemmaSlot) := by
    apply FailsOnly.mapM
    intro suffix hsuffix
    obtain ⟨id, hid, -⟩ := exists_require hc hp (List.mem_append_left _ hsuffix)
    exact .of_exists ⟨Int64.ofNat id, by rw [lemmaSlot, hid, Except.map_ok]⟩
  have hforms : FailsOnly (fun _ => False) (p.forms.mapM c.formSlot) :=
    FailsOnly.mapM fun form hform => .of_exists (exists_formSlot h hc hp hform)
  obtain ⟨lemmas, hlemmas⟩ := exists_eq_ok_of_ne_error fun e he => hlemmas e he
  obtain ⟨forms, hforms⟩ := exists_eq_ok_of_ne_error fun e he => hforms e he
  exact ⟨_, by rw [slotsOf, hhead, Except.ok_bind, hlemmas, Except.ok_bind, hforms]; rfl⟩

/-- Patterns that have slots are laid out, unless there are too many slots. -/
theorem failsOnly_layOut {qs : List ResolvedPattern} (place : Nat)
    (h : ∀ p ∈ qs, ∃ slots, c.slotsOf p = .ok slots) :
    FailsOnly l.Refusal (c.layOut place qs) := by
  induction qs generalizing place with
  | nil => exact .ok []
  | cons p qs ih =>
    rw [layOut]
    by_cases hplace : countLimit ≤ place
    · rw [if_pos hplace]
      exact .error (.fault fun _ h => by cases h)
    rw [if_neg hplace]
    refine (FailsOnly.of_exists (h p List.mem_cons_self)).refusal.bind fun slots _ => ?_
    exact (ih _ fun q hq => h q (List.mem_cons_of_mem _ hq)).bind fun _ _ => .ok _

end Scheme

/-- Every pattern has an identifier in the map that was built from the names. -/
theorem failsOnly_idsOf {P : StorageError → Prop} {places : List Int32} {starts : StringMap Int32}
    (hlength : ps.length ≤ places.length)
    (h : StringMap.ofList ((ps.map ResolvedPattern.name).zip places) = .ok starts) :
    FailsOnly P (idsOf starts ps) := by
  obtain ⟨names, values, hstores, hperm⟩ := StringMap.stores_of_ofList h
  have hnames : names.Perm (ps.map ResolvedPattern.name) := by
    have hfst := hperm.map Prod.fst
    rwa [List.map_fst_zip hstores.length_eq.le, List.map_fst_zip (by simpa using hlength)] at hfst
  apply FailsOnly.mapM
  intro p hp
  obtain ⟨id, hid⟩ := hstores.numbering.mem_iff.1 (hnames.mem_iff.2 (List.mem_map_of_mem hp))
  rw [hid]
  exact .ok id

/-- The forms of patterns are among all suffixes. -/
theorem length_flatMap_formSuffixes_le {ids : List Nat} (hlength : ps.length ≤ ids.length) :
    ((ids.zip ps).flatMap (·.2.formSuffixes)).length ≤ (suffixesOf ps).length := by
  have hsnd : (ids.zip ps).map Prod.snd = ps := List.map_snd_zip hlength
  have hforms : (ids.zip ps).flatMap (·.2.formSuffixes) =
      ps.flatMap ResolvedPattern.formSuffixes := by
    conv_rhs => rw [← hsnd, List.flatMap_map]
  rw [hforms, suffixesOf, List.length_flatMap, List.length_flatMap]
  apply List.sum_le_sum
  intro p _
  rw [List.length_append]
  exact Nat.le_add_left _ _

theorem failsOnly_indexOf {places : List Int32} {starts : StringMap Int32} (h : Few ps)
    (hlength : ps.length ≤ places.length)
    (hstarts : StringMap.ofList ((ps.map ResolvedPattern.name).zip places) = .ok starts)
    (withIndex : Bool) : FailsOnly l.Refusal (indexOf starts ps withIndex) := by
  cases withIndex with
  | true =>
    refine (failsOnly_idsOf hlength hstarts).refusal.bind fun ids hids => ?_
    have hids : ids.length = ps.length := length_of_mapM_eq_ok (liftM_eq_ok.1 hids)
    have hforms := length_flatMap_formSuffixes_le hids.ge
    have hcount := h.count
    exact SuffixIndex.failsOnly_ofPatterns (by omega)
  | false => exact SuffixIndex.failsOnly_empty.refusal

/-- Patterns with distinct names are refused only for want of room or of slots. -/
theorem failsOnly_ofResolved (hnames : (ps.map ResolvedPattern.name).Nodup) (h : Few ps)
    (withIndex : Bool) : FailsOnly l.Refusal (ofResolved ps withIndex) := by
  have hcount := h.count
  refine (Scheme.failsOnly_ofPatterns ps).refusal.bind fun c hc => ?_
  rw [liftM_eq_ok] at hc
  refine (Scheme.failsOnly_layOut 0 fun p hp => Scheme.exists_slotsOf h hc hp).bind
    fun laidOut hlaidOut => ?_
  obtain ⟨hslots, -, -⟩ := Scheme.layOut_eq_ok hlaidOut
  have hlength : (laidOut.map Prod.fst).length = ps.length := by
    rw [List.length_map, ← List.length_map Prod.snd, hslots.length_eq]
  refine (FailsOnly.of_exists ?_).refusal.bind fun starts hstarts => ?_
  · exact StringMap.exists_ofList_zip hnames (by rw [List.length_map]; omega) _
  rw [liftM_eq_ok] at hstarts
  refine (failsOnly_indexOf h hlength.ge hstarts withIndex).bind fun index _ => ?_
  refine (FailsOnly.of_exists (PackedArray.exists_ofList_of_lt ?_)).refusal.bind fun _ _ => .ok _
  rw [Scheme.length_flatten hslots]
  exact hcount

/-- No name occurs again if none is found. -/
theorem nodup_of_firstRepeated? {seen names : List String} (h : firstRepeated? seen names = none) :
    names.Nodup ∧ names.Disjoint seen := by
  induction names generalizing seen with
  | nil => exact ⟨.nil, List.disjoint_nil_left _⟩
  | cons name names ih =>
    rw [firstRepeated?] at h
    split at h
    · cases h
    · rename_i hnew
      exact nodup_cons_of_disjoint (fun hmem => hnew (List.contains_iff_mem.2 hmem)) (ih h)

/-- The patterns of a lexicon whose grammemes are in a table are refused only if a name occurs
again, and for want of room or of slots. -/
theorem failsOnly_ofPatterns? {grammemes : SortedTable} {patterns : List Lexicon.Pattern}
    {ps : List ResolvedPattern}
    (hresolved : ResolvedPattern.ofPatterns grammemes patterns = .ok ps)
    (hnames : ps.map ResolvedPattern.name = patterns.map Lexicon.Pattern.id)
    (hcount : ps.length + (suffixesOf ps).length < 2 ^ 58) (withIndex : Bool) :
    FailsOnly l.Refusal (ofPatterns? grammemes patterns withIndex) := by
  unfold ofPatterns?
  split
  · exact .ok none
  dsimp only
  split
  · exact .error (.fault nofun)
  · rename_i hrepeated
    rw [hresolved, Except.ok_bind]
    have hnone := Option.eq_none_iff_forall_ne_some.2 hrepeated
    have hnodup := (nodup_of_firstRepeated? hnone).1
    exact (failsOnly_ofResolved (hnames ▸ hnodup) ⟨hcount⟩ withIndex).bind fun _ _ => .ok _

/-! ## The stored form -/

theorem failsOnly_write (s : PatternStore) (out : Writer) : FailsOnly NoRoom (s.write out) := by
  refine (failsOnly_putCount _ _).bind fun _ _ => ?_
  refine (s.suffixes.failsOnly_write _).bind fun _ _ => ?_
  refine (s.slots.failsOnly_write _).bind fun _ _ => ?_
  refine (failsOnly_putCount _ _).bind fun _ _ => ?_
  refine (s.starts.failsOnly_write _).bind fun _ _ => ?_
  refine (s.runs.failsOnly_write _).bind fun _ _ => ?_
  exact (s.suffixIndex.failsOnly_write _).bind fun _ _ => .ok _

end PatternStore

end Paradigm
