import Mathlib
import Paradigm.Proofs.Dictionary
import Paradigm.Proofs.Pattern.Search

/-!
# The forms that a word may be in

One pass through the forms of a pattern keeps those that fit a word and have the longest suffix met
so far, and drops them all when a longer one is met.  What is left are the fitting forms that no
fitting form exceeds in length, in their order.  They end one word with suffixes of one length, so
that they share their suffix.

## Main definitions

* `Inflection.Fits`: a word may be in a form

## Main results

* `Inflection.ofSurface_eq_filter`: the forms that are left
* `Inflection.ofSurface_eq_nil_iff`: when there are none
* `Inflection.suffix_eq_of_mem_ofSurface`: what they share
* `PatternStore.surfaceForms_longest`: the forms of a stored pattern that a word may be in
-/

namespace Paradigm

namespace Inflection

variable {forms : List Inflection} {i j : Inflection} {mask : Mask} {word : String}

/-- A word may be in a form: it has all grammemes of the form and ends in its suffix. -/
def Fits (word : String) (mask : Mask) (i : Inflection) : Prop :=
  mask.includes i.grammemes ∧ i.suffix.toList <:+ word.toList

instance (word : String) (mask : Mask) : DecidablePred (Fits word mask) := fun _ =>
  inferInstanceAs (Decidable (_ ∧ _))

theorem fits_iff : Fits word mask i ↔ (mask.includes i.grammemes && i.endsWord word) = true := by
  rw [Bool.and_eq_true, endsWord_iff]
  rfl

/-! ## One pass -/

/-- Forms that do not fit leave no trace in a pass. -/
theorem foldl_meetSurface (word : String) (mask : Mask) (forms : List Inflection) :
    forms.foldl (meetSurface word mask) .start =
      (forms.filter (Fits word mask)).foldl (Leaders.meet suffixLength) .start := by
  rw [List.foldl_filter]
  congr 1
  funext found i
  simp only [meetSurface, decide_eq_true_eq, fits_iff]

/-- The forms that are left fit the word, and no form that fits it has a longer suffix. -/
theorem ofSurface_eq_filter (word : String) (mask : Mask) (forms : List Inflection) :
    ofSurface word mask forms = forms.filter fun i => Fits word mask i ∧
      ∀ j ∈ forms, Fits word mask j → j.suffixLength ≤ i.suffixLength := by
  rw [ofSurface, foldl_meetSurface, toList_foldl_meet, List.filter_filter]
  apply List.filter_congr
  intro i hi
  simp only [List.mem_filter, decide_eq_true_eq, Nat.isLE_compare, and_imp]
  rw [Bool.decide_and, Bool.and_comm]

theorem mem_ofSurface_iff : i ∈ ofSurface word mask forms ↔
    (i ∈ forms ∧ mask.includes i.grammemes ∧ i.endsWord word) ∧
      ∀ j ∈ forms, mask.includes j.grammemes → j.endsWord word → longer i j := by
  rw [ofSurface_eq_filter, List.mem_filter, decide_eq_true_eq]
  simp only [Fits, ← endsWord_iff, longer, decide_eq_true_eq, and_imp, and_assoc]

/-- Some form is left if any fits. -/
theorem ofSurface_eq_nil_iff :
    ofSurface word mask forms = [] ↔ ∀ i ∈ forms, ¬ Fits word mask i := by
  rw [ofSurface, foldl_meetSurface, toList_foldl_meet_eq_nil_iff, List.filter_eq_nil_iff]
  simp only [decide_eq_true_eq]

/-- Suffixes of one word that are no shorter than each other are equal. -/
theorem suffix_eq_of_longer (hi : i.endsWord word) (hj : j.endsWord word) (hij : longer i j)
    (hji : longer j i) : i.suffix = j.suffix := by
  simp only [longer, decide_eq_true_eq] at hij hji
  exact Text.eq_of_isSuffix (endsWord_iff.1 hi) (endsWord_iff.1 hj) (Nat.le_antisymm hji hij)

/-- The forms that are left have one suffix. -/
theorem suffix_eq_of_mem_ofSurface (hi : i ∈ ofSurface word mask forms)
    (hj : j ∈ ofSurface word mask forms) : i.suffix = j.suffix := by
  obtain ⟨⟨himem, hiincluded, hiends⟩, hilongest⟩ := mem_ofSurface_iff.1 hi
  obtain ⟨⟨hjmem, hjincluded, hjends⟩, hjlongest⟩ := mem_ofSurface_iff.1 hj
  exact suffix_eq_of_longer hiends hjends (hilongest j hjmem hjincluded hjends)
    (hjlongest i himem hiincluded hiends)

end Inflection

namespace PatternStore

/-! ## Stored patterns -/

/-- **The forms that a word may be in are those that fit it and have the longest suffix**, in the
order and with the repetitions of the pattern.  They have one suffix, and there are none only if no
form fits.  Nothing but the forms is read. -/
theorem surfaceForms_longest (s : PatternStore) (p : Pattern) (word : String) (mask : Mask) :
    (∀ e, s.inflections p = .error e → s.surfaceForms p word mask = .error e) ∧
    ∀ forms, s.inflections p = .ok forms → ∃ found, s.surfaceForms p word mask = .ok found ∧
      found = (forms.filter fun i => Inflection.Fits word mask i ∧
        ∀ j ∈ forms, Inflection.Fits word mask j → j.suffixLength ≤ i.suffixLength) ∧
      (∀ i ∈ found, ∀ j ∈ found, i.suffix = j.suffix) ∧
      (found = [] ↔ ∀ i ∈ forms, ¬ Inflection.Fits word mask i) := by
  constructor
  · intro e he
    rw [surfaceForms, he]
    rfl
  · intro forms hforms
    refine ⟨Inflection.ofSurface word mask forms, ?_,
      Inflection.ofSurface_eq_filter word mask forms, ?_, Inflection.ofSurface_eq_nil_iff⟩
    · rw [surfaceForms, hforms]
      rfl
    · intro i hi j hj
      exact Inflection.suffix_eq_of_mem_ofSurface hi hj

/-- The lexicon of a noun with two spellings, the longer of which is preferred. -/
def axeLexicon : Lexicon where
  language := "en"
  words := []
  patterns := [⟨"axe", ["noun"], 1, ["e"],
    [⟨"", ["singular"]⟩, ⟨"e", ["singular"]⟩, ⟨"s", ["plural"]⟩, ⟨"es", ["plural"]⟩]⟩]
  suffixIndex := false

theorem exists_compile_axeLexicon : ∃ image, axeLexicon.compile = .ok image := by
  let names := "noun\x00plural\x00singular\x00".toList.map fun c => UInt16.ofNat c.toNat
  -- the order of the names is evaluated first, since the kernel does not unfold the sort
  have htable : axeLexicon.grammemeTable = .ok ⟨.ofList [4, 1286, 3080], .ofList names⟩ := by
    cbv
  apply exists_eq_ok_of_isOk
  unfold Lexicon.compile WordStore.ofLexicon
  rw [htable]
  decide +kernel

/-- The stored pattern of the noun. -/
theorem exists_inflections_axeLexicon : ∃ image d s p, axeLexicon.compile = .ok image ∧
    Dictionary.load image = .ok d ∧ d.store.patterns = some s ∧ s.lemmaSuffixes p = .ok ["e"] ∧
      s.inflections p = .ok ([("", 4), ("e", 4), ("s", 2), ("es", 2)].map (s.inflectionOf p)) := by
  obtain ⟨image, himage⟩ := exists_compile_axeLexicon
  obtain ⟨d, s, v, hload, hs, hshows⟩ :=
    Dictionary.exists_shows_of_compile himage List.mem_cons_self
  have hsingular : axeLexicon.maskOf ["singular"] = 4 := by decide +kernel
  have hplural : axeLexicon.maskOf ["plural"] = 2 := by decide +kernel
  refine ⟨image, d, s, v, himage, hload, hs, hshows.lemmaSuffixes_eq, ?_⟩
  rw [hshows.inflections_eq, ← hsingular, ← hplural]
  rfl

/-- Three forms fit the plural, with longer and longer suffixes. -/
theorem surfaceForms_longest_axes : ∃ image d s p forms, axeLexicon.compile = .ok image ∧
    Dictionary.load image = .ok d ∧ d.store.patterns = some s ∧ s.inflections p = .ok forms ∧
      s.surfaceForms p "axes" 7 = .ok [s.inflectionOf p ("es", 2)] := by
  obtain ⟨image, d, s, p, himage, hload, hs, -, hforms⟩ := exists_inflections_axeLexicon
  obtain ⟨found, hfound, hfilter, -⟩ := (surfaceForms_longest s p "axes" 7).2 _ hforms
  refine ⟨image, d, s, p, _, himage, hload, hs, hforms, ?_⟩
  rw [hfound, hfilter]
  have hlength (form : String × Mask) :
      (s.inflectionOf p form).suffixLength = Text.Units.length form.1 := rfl
  have hfits (form : String × Mask) : Inflection.Fits "axes" 7 (s.inflectionOf p form) ↔
      Mask.includes 7 form.2 ∧ form.1.toList <:+ "axes".toList := Iff.rfl
  simp only [List.filter_map, List.forall_mem_map, Function.comp_def, hlength, hfits]
  show _ = Except.ok (List.map (s.inflectionOf p) [("es", 2)])
  apply congrArg fun kept => Except.ok (List.map (s.inflectionOf p) kept)
  decide

/-- The lexicon of a noun with two genders in the plural, one of them with a diminutive. -/
def boyLexicon : Lexicon where
  language := "es"
  words := []
  patterns := [⟨"boy", ["noun"], 1, ["o"],
    [⟨"o", ["masculine", "singular"]⟩, ⟨"itos", ["diminutive", "masculine", "plural"]⟩,
      ⟨"as", ["feminine", "plural"]⟩, ⟨"os", ["masculine", "plural"]⟩]⟩]
  suffixIndex := false

theorem exists_compile_boyLexicon : ∃ image, boyLexicon.compile = .ok image := by
  let names := "diminutive\x00feminine\x00masculine\x00noun\x00plural\x00singular\x00".toList.map
    fun c => UInt16.ofNat c.toNat
  let table : SortedTable := ⟨.ofList [10, 2824, 5129, 7684, 8966, 10760], .ofList names⟩
  have htable : boyLexicon.grammemeTable = .ok table := by
    cbv
  apply exists_eq_ok_of_isOk
  unfold Lexicon.compile WordStore.ofLexicon
  rw [htable]
  decide +kernel

/-- The stored pattern of the noun with two genders. -/
theorem exists_inflections_boyLexicon : ∃ image d s p, boyLexicon.compile = .ok image ∧
    Dictionary.load image = .ok d ∧ d.store.patterns = some s ∧ s.inflections p =
      .ok ([("o", 36), ("itos", 21), ("as", 18), ("os", 20)].map (s.inflectionOf p)) := by
  obtain ⟨image, himage⟩ := exists_compile_boyLexicon
  obtain ⟨d, s, v, hload, hs, hshows⟩ :=
    Dictionary.exists_shows_of_compile himage List.mem_cons_self
  have hmasks : boyLexicon.maskOf ["masculine", "singular"] = 36 ∧
      boyLexicon.maskOf ["diminutive", "masculine", "plural"] = 21 ∧
      boyLexicon.maskOf ["feminine", "plural"] = 18 ∧
      boyLexicon.maskOf ["masculine", "plural"] = 20 := by decide +kernel
  obtain ⟨hsingular, hdiminutive, hfeminine, hplural⟩ := hmasks
  refine ⟨image, d, s, v, himage, hload, hs, ?_⟩
  rw [hshows.inflections_eq, ← hsingular, ← hdiminutive, ← hfeminine, ← hplural]
  rfl

end PatternStore

end Paradigm
