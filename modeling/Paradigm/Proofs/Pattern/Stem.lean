import Mathlib
import Paradigm.Proofs.Dictionary
import Paradigm.Proofs.Pattern
import Paradigm.Proofs.Text.Units

/-!
# The stem of a word

A word is analyzed by the longest suffix among the forms that it may be in, and brought into another
form by cutting off the longest suffix among the forms that have no other grammemes than it was
found to have.  These are not the same forms, but their longest suffixes are the same, unless it was
found to have none: a word without grammemes may be in any form, and loses the longest suffix of all
of them.

## Main results

* `Inflection.suffixToCut_of_mem_ofSurface`: the suffix of such a form is cut off
* `PatternStore.reinflect_surfaceForms`: an analyzed word in another form
* `PatternStore.reinflect_cuts_longer`: a word without grammemes that loses more than its suffix
-/

namespace Paradigm

namespace Inflection

variable {forms : List Inflection} {i j : Inflection} {mask source target : Mask} {word : String}

/-! ## The suffix that is cut off -/

/-- A form that comes into question is cut off, or one with a longer suffix. -/
theorem exists_suffixToCut (hi : i ∈ forms)
    (hsource : source = 0 ∨ source.includes i.grammemes) (hends : i.endsWord word) :
    ∃ b ∈ forms, suffixToCut source word forms = b.suffix ∧
      (source = 0 ∨ source.includes b.grammemes) ∧ b.endsWord word ∧
      ∀ j ∈ forms, source = 0 ∨ source.includes j.grammemes → j.endsWord word → longer b j := by
  rcases suffixToCut_cases source word forms with ⟨-, hnone⟩ | hsome
  · exact absurd hends (hnone i hi hsource)
  · exact hsome

/-- The suffix by which a word was analyzed is cut off again, if the form has grammemes. -/
theorem suffixToCut_of_mem_ofSurface (hi : i ∈ ofSurface word mask forms)
    (hne : i.grammemes ≠ 0) : suffixToCut i.grammemes word forms = i.suffix := by
  obtain ⟨⟨hforms, hincluded, hends⟩, hlongest⟩ := mem_ofSurface_iff.1 hi
  obtain ⟨b, hb, heq, hsource, hbends, hbest⟩ :=
    exists_suffixToCut hforms (.inr (Mask.includes_refl _)) hends
  rw [heq]
  -- all grammemes of the form are grammemes of the word
  have hbmask := Mask.includes_trans hincluded (hsource.resolve_left hne)
  exact suffix_eq_of_longer hbends hends (hbest i hforms (.inr (Mask.includes_refl _)) hends)
    (hlongest b hb hbmask hbends)

/-! ## The other form -/

/-- A word is brought into a form with the wanted grammemes, unless there is none. -/
theorem reinflect_cases (htarget : target ≠ 0) (hnew : ¬ source.includes target)
    (optional : List Mask) (word : String) (forms : List Inflection) :
    (reinflect source target optional word forms = none ∧
        ∀ j ∈ forms, ¬ j.grammemes.includes target) ∨
      ∃ j ∈ forms, j.grammemes.includes target ∧ reinflect source target optional word forms =
        some (stem word (suffixToCut source word forms) ++ j.suffix) := by
  rw [reinflect_eq, if_neg (not_or.2 ⟨htarget, hnew⟩)]
  cases hbest : target? source target optional forms with
  | none =>
    refine .inl ⟨rfl, ?_⟩
    intro j hj hincludes
    have hmem : j ∈ forms.filter (·.grammemes.includes target) := List.mem_filter.2 ⟨hj, hincludes⟩
    rw [best?_eq_none_iff.1 hbest] at hmem
    cases hmem
  | some j =>
    obtain ⟨hj, hincludes⟩ := List.mem_filter.1 (mem_of_best? hbest)
    exact .inr ⟨j, hj, hincludes, rfl⟩

end Inflection

namespace PatternStore

variable {s : PatternStore} {p : Pattern} {forms found : List Inflection} {i : Inflection}
  {word : String} {mask target : Mask}

theorem reinflect_eq_ok (hforms : s.inflections p = .ok forms) (source target : Mask)
    (optional : List Mask) (word : String) : s.reinflect p source target optional word =
      .ok (Inflection.reinflect source target optional word forms) := by
  unfold reinflect
  split
  · rw [Inflection.reinflect_eq, if_pos ‹_›]
    rfl
  · rw [hforms]
    rfl

/-- **A word that was analyzed by a form of a pattern is brought into another form** by exchanging
the suffix of the form, or cannot be brought into it, as no form has the wanted grammemes.  If the
form by which it was analyzed has no grammemes, then the longest suffix of all forms of the pattern
that end the word is exchanged instead. -/
theorem reinflect_surfaceForms (h : s.surfaceForms p word mask = .ok found) (hi : i ∈ found)
    (htarget : target ≠ 0) (hnew : ¬ i.grammemes.includes target) (optional : List Mask) :
    ∃ forms stem ending, s.inflections p = .ok forms ∧ word = stem ++ ending ∧
      (i.grammemes ≠ 0 → ending = i.suffix) ∧
      (i.grammemes = 0 → ∃ b ∈ forms, b.suffix = ending ∧
        ∀ j ∈ forms, j.endsWord word → j.suffixLength ≤ b.suffixLength) ∧
      ((s.reinflect p i.grammemes target optional word = .ok none ∧
          ∀ j ∈ forms, ¬ j.grammemes.includes target) ∨
        ∃ j ∈ forms, j.grammemes.includes target ∧
          s.reinflect p i.grammemes target optional word = .ok (some (stem ++ j.suffix))) := by
  obtain ⟨forms, hforms, rfl⟩ := Except.map_eq_ok.1 h
  obtain ⟨⟨hmem, -, hends⟩, -⟩ := Inflection.mem_ofSurface_iff.1 hi
  obtain ⟨b, hb, hcut, -, hbends, hbest⟩ :=
    Inflection.exists_suffixToCut hmem (.inr (Mask.includes_refl _)) hends
  refine ⟨forms, _, b.suffix, hforms, Inflection.eq_stem_append (Inflection.endsWord_iff.1 hbends),
    ?analyzed, ?unknown, ?_⟩
  case analyzed =>
    intro hne
    rw [← hcut, Inflection.suffixToCut_of_mem_ofSurface hi hne]
  case unknown =>
    intro hzero
    refine ⟨b, hb, rfl, ?_⟩
    intro j hj hjends
    exact of_decide_eq_true (hbest j hj (.inl hzero) hjends)
  rw [reinflect_eq_ok hforms, ← hcut]
  rcases Inflection.reinflect_cases htarget hnew optional word forms with
    ⟨hnone, hall⟩ | ⟨j, hj, hincludes, hsome⟩
  · exact .inl ⟨congrArg Except.ok hnone, hall⟩
  · exact .inr ⟨j, hj, hincludes, congrArg Except.ok hsome⟩

theorem reinflect_surfaceForms_cats : ∃ image d s p found i,
    Dictionary.catLexicon.compile = .ok image ∧ Dictionary.load image = .ok d ∧
      d.store.patterns = some s ∧ s.surfaceForms p "cats" 3 = .ok found ∧ i ∈ found ∧
      i.grammemes = 2 ∧ s.reinflect p i.grammemes 4 [] "cats" = .ok (some "cat") := by
  obtain ⟨image, himage⟩ := Dictionary.exists_compile_catLexicon
  obtain ⟨d, s, v, hload, hs, hshows⟩ :=
    Dictionary.exists_shows_of_compile himage List.mem_cons_self
  have hforms : s.inflections v = .ok [s.inflectionOf v ("", 4), s.inflectionOf v ("s", 2)] := by
    have hsingular : Dictionary.catLexicon.maskOf ["singular"] = 4 := by decide +kernel
    have hplural : Dictionary.catLexicon.maskOf ["plural"] = 2 := by decide +kernel
    rw [hshows.inflections_eq, ← hsingular, ← hplural]
    rfl
  have hfound : s.surfaceForms v "cats" 3 = .ok [s.inflectionOf v ("s", 2)] := by
    rw [surfaceForms, hforms]
    cbv
  have hnew : ¬ Mask.includes 2 4 := by decide
  have htarget : (4 : Mask) ≠ 0 := by decide
  obtain ⟨forms, stem, ending, hforms', hword, hending, -, hcases⟩ :=
    reinflect_surfaceForms hfound List.mem_cons_self htarget hnew []
  refine ⟨image, d, s, v, _, _, himage, hload, hs, hfound, List.mem_cons_self, rfl, ?_⟩
  obtain rfl := Except.ok.inj (hforms.symm.trans hforms')
  obtain rfl : ending = "s" := hending (show (2 : Mask) ≠ 0 by decide)
  obtain rfl : stem = "cat" := (String.append_left_inj "s").1 hword.symm
  -- only the first form has the wanted grammeme
  rcases hcases with ⟨-, hall⟩ | ⟨j, hj, hincludes, hsome⟩
  · exact absurd (show Mask.includes 4 4 by decide) (hall _ List.mem_cons_self)
  · rw [hsome]
    rcases List.mem_pair.1 hj with rfl | rfl
    · rfl
    · exact absurd hincludes hnew

/-- The lexicon of a pattern that has a form without grammemes. -/
def bareLexicon : Lexicon where
  language := "en"
  words := []
  patterns := [⟨"regular", ["noun"], 1, [""], [⟨"", []⟩, ⟨"s", ["plural"]⟩]⟩]
  suffixIndex := false

theorem exists_compile_bareLexicon : ∃ image, bareLexicon.compile = .ok image := by
  let names := "noun\x00plural\x00".toList.map fun c => UInt16.ofNat c.toNat
  -- the order of the names is evaluated first, since the kernel does not unfold the sort
  have htable : bareLexicon.grammemeTable = .ok ⟨.ofList [4, 1286], .ofList names⟩ := by
    cbv
  apply exists_eq_ok_of_isOk
  unfold Lexicon.compile WordStore.ofLexicon
  rw [htable]
  decide +kernel

/-- **A word may lose more than the suffix by which it was analyzed.**  A noun without a number is
analyzed by the form without grammemes, whose suffix is empty.  Then it is brought into the plural
as a word that may be in any form, and loses the suffix of the plural. -/
theorem reinflect_cuts_longer : ∃ image d s p i forms, bareLexicon.compile = .ok image ∧
    Dictionary.load image = .ok d ∧ d.store.patterns = some s ∧
      s.surfaceForms p "cats" 1 = .ok [i] ∧ i.suffix = "" ∧ ¬ i.grammemes.includes 2 ∧
      s.inflections p = .ok forms ∧
      s.reinflect p i.grammemes 2 [] "cats" = .ok (some "cats") ∧
      ∀ stem, "cats" = stem ++ i.suffix →
        ∀ j ∈ forms, j.grammemes.includes 2 → stem ++ j.suffix ≠ "cats" := by
  obtain ⟨image, himage⟩ := exists_compile_bareLexicon
  obtain ⟨d, s, v, hload, hs, hshows⟩ :=
    Dictionary.exists_shows_of_compile himage List.mem_cons_self
  have hforms : s.inflections v = .ok [s.inflectionOf v ("", 0), s.inflectionOf v ("s", 2)] := by
    have hbare : bareLexicon.maskOf [] = 0 := by decide +kernel
    have hplural : bareLexicon.maskOf ["plural"] = 2 := by decide +kernel
    rw [hshows.inflections_eq, ← hbare, ← hplural]
    rfl
  have hnew : ¬ Mask.includes 0 2 := by decide
  refine ⟨image, d, s, v, s.inflectionOf v ("", 0), _, himage, hload, hs, ?_, rfl, hnew, hforms, ?_,
    ?_⟩
  · rw [surfaceForms, hforms]
    cbv
  · rw [reinflect_eq_ok hforms]
    cbv
  · intro stem hstem j hj hincludes
    obtain rfl : stem = "cats" := (String.append_left_inj "").1 hstem.symm
    rcases List.mem_pair.1 hj with rfl | rfl
    · exact absurd hincludes hnew
    · show "cats" ++ "s" ≠ "cats"
      decide

end PatternStore

end Paradigm
