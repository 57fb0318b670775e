import Mathlib
import Paradigm.Proofs.Inflector.Fallback

/-!
# What analysis finds

The sets of grammemes of a word and its readings are collected apart.  Both come from the patterns
of the word, and from its own grammemes where these give nothing, so that the sets of the readings
are those that no rule of the language excludes, in the order of the tables.  Since this order is
stable, further rules take readings away and leave the others where they are.

## Main definitions

* `Analyzer.ReadsIn`: a word is read in a form of one of its patterns

## Main results

* `StablySorted.filter`: stable order within what is kept
* `Analyzer.grammemeSets_eq`: the sets of grammemes of a word are those of its readings
* `Analyzer.analyze_sorts_grammemeSets`: the sets of the readings that are found, and their forms
* `Analyzer.analyze_ignoring_more`: what further rules take away
-/

namespace Paradigm

/-! ## Stable order -/

section Order

variable {α β : Type} {cmp : α → α → Ordering} {xs ys : List α}

theorem tiedWith_filter (cmp : α → α → Ordering) (a : α) (p : α → Bool) (xs : List α) :
    tiedWith cmp a (xs.filter p) = (tiedWith cmp a xs).filter p := by
  rw [tiedWith, tiedWith, List.filter_filter, List.filter_filter]
  congr 1
  funext b
  exact Bool.and_comm _ _

/-- What is kept of a list in stable order is in stable order. -/
theorem StablySorted.filter (h : StablySorted cmp xs ys) (p : α → Bool) :
    StablySorted cmp (xs.filter p) (ys.filter p) where
  perm := h.perm.filter p
  ordered := h.ordered.filter p
  stable := by
    intro a
    rw [tiedWith_filter, tiedWith_filter, h.stable a]

/-- Two elements change places if the second one comes first. -/
theorem stablySorted_swap [Std.TransCmp cmp] {a b : α} (h : cmp b a = .lt) :
    StablySorted cmp [a, b] [b, a] where
  perm := .swap a b []
  ordered := List.pairwise_pair.2 (by rw [h]; rfl)
  stable := by
    intro c
    -- no element is tied with both
    have hnone : tiedWith cmp c [a] = [] ∨ tiedWith cmp c [b] = [] := by
      by_cases hca : cmp c a = .eq
      · have hcb : cmp c b ≠ .eq := by
          rw [Std.TransCmp.congr_left hca, Std.OrientedCmp.gt_of_lt h]
          decide
        exact Or.inr (tiedWith_cons_of_ne hcb)
      · exact Or.inl (tiedWith_cons_of_ne hca)
    rw [← List.singleton_append, ← List.singleton_append (l := [b]), tiedWith_append,
      tiedWith_append]
    rcases hnone with hnone | hnone
    · rw [hnone, List.append_nil, List.nil_append]
    · rw [hnone, List.append_nil, List.nil_append]

/-- Sorting by merging and taking elements away can be done in any order. -/
theorem filter_mergeSort (cmp : α → α → Ordering) [Std.TransCmp cmp] (p : α → Bool)
    (xs : List α) : (xs.mergeSort fun a b => (cmp a b).isLE).filter p =
      (xs.filter p).mergeSort fun a b => (cmp a b).isLE :=
  ((stablySorted_mergeSort cmp xs).filter p).unique (stablySorted_mergeSort cmp (xs.filter p))

end Order

namespace Analyzer

variable {a : Analyzer} {word : String} {mask : Mask} {r : Reading} {rs : List Reading}

/-! ## Readings and their forms -/

/-- A word is read in a form of one of its patterns: it has the grammemes of the form and ends in
its suffix, and the reading has these grammemes and the parts of speech of the pattern. -/
structure ReadsIn (a : Analyzer) (word : String) (r : Reading) (i : Inflection) : Prop where
  grammemes_eq : r.grammemes = i.grammemes ||| i.pattern.partsOfSpeech
  fits : ∃ mask, a.dictionary.grammemes? word = .ok (some mask) ∧ Inflection.Fits word mask i
  pattern_mem : ∃ s ps, a.dictionary.store.patterns = some s ∧
    a.dictionary.patternsForWord s word = .ok ps ∧ i.pattern ∈ ps

/-- The readings of a known word by its patterns are in forms that fit the word. -/
theorem readsIn_of_patternReadings (hmask : a.dictionary.grammemes? word = .ok (some mask))
    (h : a.patternReadings word mask = .ok rs) (hr : r ∈ rs) {i : Inflection}
    (hi : r.inflection = some i) : a.ReadsIn word r i := by
  unfold patternReadings at h
  split at h
  · rw [← Except.ok.inj h] at hr
    cases hr
  · rename_i s hs
    obtain ⟨ps, hps, h⟩ := Except.bind_eq_ok.1 h
    obtain ⟨hpattern, hgrammemes, hfits, -⟩ := of_mem_readingsByAll h hr hi
    exact ⟨hgrammemes, ⟨mask, hmask, hfits⟩, s, ps, hs, hps, hpattern⟩

/-- A known word has readings. -/
theorem ne_nil_of_readings (hmask : a.dictionary.grammemes? word = .ok (some mask))
    (h : a.readings word = .ok rs) : rs ≠ [] := by
  unfold readings at h
  rw [hmask, Except.ok_bind] at h
  obtain ⟨found, -, h⟩ := Except.bind_eq_ok.1 h
  cases found with
  | nil =>
    rw [← Except.ok.inj h]
    exact List.cons_ne_nil _ _
  | cons r rs' =>
    rw [← Except.ok.inj h]
    exact List.cons_ne_nil _ _

/-- The readings of a word are in forms that fit it, unless they have no form. -/
theorem readsIn_of_readings (h : a.readings word = .ok rs) (hr : r ∈ rs) {i : Inflection}
    (hi : r.inflection = some i) : a.ReadsIn word r i := by
  obtain ⟨known, hknown, h⟩ := Except.bind_eq_ok.1 h
  cases known with
  | none =>
    rw [← Except.ok.inj h] at hr
    cases hr
  | some mask =>
    obtain ⟨found, hfound, h⟩ := Except.bind_eq_ok.1 h
    cases found with
    | nil =>
      -- the reading of a word by its own grammemes has no form
      rw [← Except.ok.inj h] at hr
      rw [List.mem_singleton.1 hr] at hi
      cases hi
    | cons q rs' =>
      rw [← Except.ok.inj h] at hr
      exact readsIn_of_patternReadings hknown hfound hr hi

/-! ## Sets of grammemes -/

/-- The sets of grammemes of a word are those of its readings. -/
theorem grammemeSets_eq (a : Analyzer) (word : String) :
    a.grammemeSets word = List.map Reading.grammemes <$> a.readings word := by
  unfold grammemeSets readings
  cases a.dictionary.grammemes? word with
  | error e => rfl
  | ok known =>
    cases known with
    | none => rfl
    | some mask =>
      simp only [Except.ok_bind]
      cases a.patternReadings word mask with
      | error e => rfl
      | ok found => cases found <;> rfl

theorem analyze_eq (a : Analyzer) (word : String) :
    a.analyze word = (fun rs => (a.important rs).mergeSort fun r s =>
      (a.compareGrammemes r.grammemes s.grammemes).isLE) <$> a.readings word := by
  unfold analyze
  cases a.readings word <;> rfl

/-- A word that is not known has no readings. -/
theorem readings_of_unknown (h : a.dictionary.isKnown word = .ok false) :
    a.readings word = .ok [] := by
  obtain ⟨known, hknown, hnone⟩ := Except.map_eq_ok.1 h
  obtain rfl : known = none := by simpa using hnone
  rw [readings, hknown]
  rfl

/-- The grammemes of readings that are sorted by them, and the readings that are not ruled out. -/
theorem map_grammemes_mergeSort (a : Analyzer) (rs : List Reading) :
    ((a.important rs).mergeSort fun r s =>
      (a.compareGrammemes r.grammemes s.grammemes).isLE).map Reading.grammemes =
    ((rs.map Reading.grammemes).filter a.isImportant).mergeSort fun x y =>
      (a.compareGrammemes x y).isLE := by
  rw [List.filter_map]
  exact List.map_mergeSort fun _ _ _ _ => rfl

/-- **Analysis and the sets of grammemes of a word agree.**  Both fail alike.  The sets of the
readings that are found are those of all readings that are not ruled out, in the stable order of the
tables, and each reading in a form has the grammemes of this form and of its pattern, whose suffix
ends the word.  A word has no sets just if it is not known, and no readings are found then. -/
theorem analyze_sorts_grammemeSets (a : Analyzer) (word : String) :
    (∀ e, a.analyze word = .error e ↔ a.grammemeSets word = .error e) ∧
    (∀ rs, a.analyze word = .ok rs → ∃ sets, a.grammemeSets word = .ok sets ∧
      StablySorted a.compareGrammemes (sets.filter a.isImportant) (rs.map Reading.grammemes) ∧
      ∀ r ∈ rs, ∀ i, r.inflection = some i → a.ReadsIn word r i ∧
        r.grammemes = i.grammemes ||| i.pattern.partsOfSpeech ∧ i.suffix.toList <:+ word.toList) ∧
    (a.dictionary.isKnown word = .ok false ↔ a.grammemeSets word = .ok []) ∧
    (a.dictionary.isKnown word = .ok false → a.analyze word = .ok []) := by
  rw [analyze_eq, grammemeSets_eq]
  refine ⟨?fails, ?sorted, ?unknown, ?none⟩
  case fails =>
    intro e
    rw [Except.map_eq_error, Except.map_eq_error]
  case sorted =>
    intro found hfound
    obtain ⟨rs, hrs, rfl⟩ := Except.map_eq_ok.1 hfound
    refine ⟨rs.map Reading.grammemes, by rw [hrs, Except.map_ok], ?_, ?_⟩
    · rw [map_grammemes_mergeSort]
      exact stablySorted_mergeSort _ _
    · intro r hr i hi
      have hmem : r ∈ rs := (List.mem_filter.1 (List.mem_mergeSort.1 hr)).1
      have hreads := readsIn_of_readings hrs hmem hi
      obtain ⟨mask, -, hfits⟩ := hreads.fits
      exact ⟨hreads, hreads.grammemes_eq, hfits.2⟩
  case unknown =>
    constructor
    · intro hunknown
      rw [readings_of_unknown hunknown]
      rfl
    · intro hnil
      obtain ⟨rs, hrs, hmap⟩ := Except.map_eq_ok.1 hnil
      obtain ⟨known, hknown, -⟩ := Except.bind_eq_ok.1 hrs
      cases known with
      | none => rw [Dictionary.isKnown, hknown, Except.map_ok, Option.isSome_none]
      | some mask => exact absurd (List.map_eq_nil_iff.1 hmap) (ne_nil_of_readings hknown hrs)
  case none =>
    intro hunknown
    rw [readings_of_unknown hunknown]
    exact congrArg Except.ok List.mergeSort_nil

/-- The readings of a word by its patterns are all of its readings, if there are any. -/
theorem readings_eq_ok {s : PatternStore} {ps : List Pattern}
    (hmask : a.dictionary.grammemes? word = .ok (some mask))
    (hs : a.dictionary.store.patterns = some s)
    (hps : a.dictionary.patternsForWord s word = .ok ps)
    (hrs : readingsByAll s word mask ps = .ok (r :: rs)) : a.readings word = .ok (r :: rs) := by
  have hpatterns : a.patternReadings word mask = .ok (r :: rs) := by
    rw [patternReadings, hs]
    simp only [hps, Except.ok_bind, hrs]
  rw [readings, hmask, Except.ok_bind]
  simp only [hpatterns, Except.ok_bind]
  rfl

/-- A table that prefers verbs puts the verb first, which is the second pattern of the word. -/
theorem exists_analyze_duckLexicon : ∃ (image : View) (d : Dictionary) (noun verb : Reading),
    Inflector.duckLexicon.compile = .ok image ∧ Dictionary.load image = .ok d ∧
      noun.grammemes = 17 ∧ verb.grammemes = 40 ∧
      (ofMasks d [] [[32]] []).readings "duck" = .ok [noun, verb] ∧
      (ofMasks d [] [[32]] []).analyze "duck" = .ok [verb, noun] := by
  obtain ⟨image, d, s, ps, noun, verb, himage, hload, ⟨hmask, hs, hps, hrs⟩, ⟨hnoun, hverb⟩, -⟩ :=
    Inflector.exists_readings_duckLexicon
  let a := ofMasks d [] [[32]] []
  have hreadings : a.readings "duck" = .ok [noun, verb] := readings_eq_ok hmask hs hps hrs
  refine ⟨image, d, noun, verb, himage, hload, hnoun, hverb, hreadings, ?_⟩
  have hlt : a.compareGrammemes verb.grammemes noun.grammemes = .lt := by
    rw [hnoun, hverb]
    rfl
  have hsorted := stablySorted_mergeSort
    (fun r s : Reading => a.compareGrammemes r.grammemes s.grammemes) [noun, verb]
  have himportant : a.important [noun, verb] = [noun, verb] := important_eq_self rfl _
  show a.analyze "duck" = _
  rw [analyze_eq, hreadings, Except.map_ok, himportant, hsorted.unique (stablySorted_swap hlt)]

/-- A word that is in no lexicon is told from one that is read in two forms. -/
theorem analyze_sorts_grammemeSets_duck : ∃ (image : View) (a : Analyzer) (noun verb : Reading),
    Inflector.duckLexicon.compile = .ok image ∧ Dictionary.load image = .ok a.dictionary ∧
      a.grammemeSets "duck" = .ok [17, 40] ∧ a.analyze "duck" = .ok [verb, noun] ∧
      StablySorted a.compareGrammemes [17, 40] ([verb, noun].map Reading.grammemes) ∧
      a.dictionary.isKnown "dog" = .ok false ∧ a.grammemeSets "dog" = .ok [] ∧
      a.analyze "dog" = .ok [] := by
  obtain ⟨image, d, noun, verb, himage, hload, hnoun, hverb, hreadings, hanalyze⟩ :=
    exists_analyze_duckLexicon
  let a := ofMasks d [] [[32]] []
  have hsets : a.grammemeSets "duck" = .ok [17, 40] := by
    rw [grammemeSets_eq, hreadings, Except.map_ok, List.map_cons, List.map_cons, hnoun, hverb]
    rfl
  obtain ⟨sets, hsets', hsorted, -⟩ := (analyze_sorts_grammemeSets a "duck").2.1 _ hanalyze
  obtain rfl := Except.ok.inj (hsets.symm.trans hsets')
  have hdog : d.isKnown "dog" = .ok false := by
    obtain ⟨d', maps, slots, data, hload', h⟩ := Dictionary.stores_of_compile himage
    obtain rfl := Except.ok.inj (hload.symm.trans hload')
    have hwritten : d.writtenGrammemes? "dog" = .ok none := by
      rw [Dictionary.writtenGrammemes?, h.wordGrammemes?_eq_none (by decide)]
      rfl
    have hlowered : d.lowered "dog" = "dog" := by
      unfold Dictionary.lowered Text.Case.lowercase
      cases d.locale.hasTurkicCasing <;> decide +kernel
    rw [Dictionary.isKnown, Dictionary.grammemes?, hwritten, Except.ok_bind]
    simp only [hlowered, if_true]
    rfl
  exact ⟨image, a, noun, verb, himage, hload, hsets, hanalyze, hsorted, hdog,
    (analyze_sorts_grammemeSets a "dog").2.2.1.1 hdog,
    (analyze_sorts_grammemeSets a "dog").2.2.2 hdog⟩

/-! ## Further rules -/

theorem isImportant_ofMasks (d : Dictionary) (attributes : List Mask)
    (priorities : List (List Mask)) (ignored : List Mask) (mask : Mask) :
    (ofMasks d attributes priorities ignored).isImportant mask =
      !ignored.any fun s => s != 0 && mask.includes s := by
  rw [isImportant, ofMasks, List.any_filter]
  congr 2
  funext s
  by_cases hs : s = 0 <;> simp [hs]

/-- **Further rules only take readings away**: those that include one of the sets that are ignored
in addition and not empty.  All others are found in the same order, and empty sets change
nothing. -/
theorem analyze_ignoring_more {ignored further all : List Mask}
    (h : ∀ s, s ∈ all ↔ s ∈ ignored ∨ s ∈ further) (d : Dictionary) (attributes : List Mask)
    (priorities : List (List Mask)) (word : String) :
    (ofMasks d attributes priorities all).analyze word =
      List.filter (fun r => !further.any fun s => s != 0 && r.grammemes.includes s) <$>
        (ofMasks d attributes priorities ignored).analyze word ∧
    ((∀ s ∈ further, s = 0) → (ofMasks d attributes priorities all).analyze word =
      (ofMasks d attributes priorities ignored).analyze word) := by
  let a := ofMasks d attributes priorities ignored
  let b := ofMasks d attributes priorities all
  let kept (r : Reading) : Bool := !further.any fun s => s != 0 && r.grammemes.includes s
  have hreadings : b.readings word = a.readings word := rfl
  have himportant (rs : List Reading) : b.important rs = (a.important rs).filter kept := by
    rw [important, important, List.filter_filter]
    apply List.filter_congr
    intro r _
    rw [isImportant_ofMasks, isImportant_ofMasks, ← Bool.not_or, ← List.any_append]
    congr 1
    rw [Bool.eq_iff_iff, List.any_eq_true, List.any_eq_true]
    simp only [List.mem_append, h, or_comm]
  have hmore : b.analyze word = List.filter kept <$> a.analyze word := by
    rw [analyze_eq, analyze_eq, hreadings, ← comp_map]
    congr 1
    funext rs
    rw [himportant]
    exact (filter_mergeSort (fun r s => a.compareGrammemes r.grammemes s.grammemes) kept _).symm
  refine ⟨hmore, fun hempty => ?_⟩
  -- an empty set is included in all others, but is not among those that are ignored
  have hkept : List.filter kept = id := by
    funext rs
    rw [id, List.filter_eq_self]
    intro r _
    show (!further.any _) = true
    rw [Bool.not_eq_true', List.any_eq_false]
    intro s hs
    rw [hempty s hs]
    simp
  rw [hmore, hkept, id_map]

/-- Ignoring the singular takes the noun away, and ignoring the empty set nothing. -/
theorem analyze_ignoring_more_duck : ∃ (image : View) (d : Dictionary) (noun verb : Reading),
    Inflector.duckLexicon.compile = .ok image ∧ Dictionary.load image = .ok d ∧
      (∀ s : Mask, s ∈ [0, 16] ↔ s ∈ ([] : List Mask) ∨ s ∈ [16, 0]) ∧
      (∀ s : Mask, s ∈ [0] ↔ s ∈ ([] : List Mask) ∨ s ∈ [0]) ∧ (∀ s ∈ [(0 : Mask)], s = 0) ∧
      (ofMasks d [] [[32]] []).analyze "duck" = .ok [verb, noun] ∧
      (ofMasks d [] [[32]] [0, 16]).analyze "duck" = .ok [verb] ∧
      (ofMasks d [] [[32]] [0]).analyze "duck" = .ok [verb, noun] := by
  obtain ⟨image, d, noun, verb, himage, hload, hnoun, hverb, -, hanalyze⟩ :=
    exists_analyze_duckLexicon
  have hsingular : ∀ s : Mask, s ∈ [0, 16] ↔ s ∈ ([] : List Mask) ∨ s ∈ [16, 0] := by
    intro s
    simp [or_comm]
  have hempty : ∀ s : Mask, s ∈ [0] ↔ s ∈ ([] : List Mask) ∨ s ∈ [0] := by
    intro s
    simp
  have hzero : ∀ s ∈ [(0 : Mask)], s = 0 := by simp
  refine ⟨image, d, noun, verb, himage, hload, hsingular, hempty, hzero, hanalyze, ?_, ?_⟩
  · rw [(analyze_ignoring_more hsingular d [] [[32]] "duck").1, hanalyze, Except.map_ok]
    simp only [List.filter_cons, List.filter_nil, hnoun, hverb]
    rfl
  · rw [(analyze_ignoring_more hempty d [] [[32]] "duck").2 hzero, hanalyze]

end Analyzer

end Paradigm
