import Mathlib
import Paradigm.Proofs.Pattern.Stem

/-!
# Words in other forms

A word is brought into another form of a pattern by exchanging the longest suffix that it may have
for that of the first form of the highest rank.  Where the grammemes of the forms are incomparable,
these are the suffixes of the two forms, and the way back undoes the exchange.

## Main definitions

* `Inflection.targetRank`: the rank of a form to bring a word into
* `Inflection.Loses`: what is cut off a word
* `Inflection.Prefers`: the form that is taken

## Main results

* `PatternStore.reinflect_exchanges`: any word in another form of any pattern
* `PatternStore.reinflect_swaps_back`: the way to another form and back
-/

namespace Paradigm

namespace Inflection

variable {forms : List Inflection} {i j b : Inflection} {source target : Mask}
  {optional : List Mask} {word : String}

/-! ## The suffix that a word loses -/

/-- What a word loses on the way to another form: the longest suffix that ends it among the forms
that it may be in, or nothing if there is none. -/
structure Loses (source : Mask) (word : String) (forms : List Inflection) (ending : String) :
    Prop where
  ends : ending.toList <:+ word.toList
  origin : ending = "" ∨
    ∃ i ∈ forms, (source = 0 ∨ source.includes i.grammemes) ∧ i.suffix = ending
  longest : ∀ i ∈ forms, source = 0 ∨ source.includes i.grammemes → i.endsWord word →
    i.suffix.toList <:+ ending.toList

theorem loses_suffixToCut (source : Mask) (word : String) (forms : List Inflection) :
    Loses source word forms (suffixToCut source word forms) where
  ends := suffixToCut_isSuffix source word forms
  origin := by
    rcases suffixToCut_cases source word forms with ⟨heq, -⟩ | ⟨b, hb, heq, hsource, -⟩
    · exact .inl heq
    · exact .inr ⟨b, hb, hsource, heq.symm⟩
  longest := by
    intro i hi hsource hends
    obtain ⟨b, -, heq, -, hbends, hbest⟩ := exists_suffixToCut hi hsource hends
    rw [heq]
    exact Text.isSuffix_of_length_le (endsWord_iff.1 hends) (endsWord_iff.1 hbends)
      (of_decide_eq_true (hbest i hi hsource hends))

/-! ## The form that is taken -/

/-- The rank of a form among those with the wanted grammemes, in lexicographic order: by the
optional grammemes, then by how many grammemes of the word it has, then by having few that are not
wanted. -/
def targetRank (source target : Mask) (optional : List Mask) (i : Inflection) : ℤ ×ₗ ℕ ×ₗ ℤ :=
  toLex ((i.grammemes.priorityScore optional).toInt,
    toLex ((i.grammemes.toFinset ∩ source.toFinset).card,
      (target.toFinset.card : ℤ) - i.grammemes.toFinset.card))

theorem atLeast_targetScore_iff : atLeast (targetScore source target optional) i j ↔
    targetRank source target optional j ≤ targetRank source target optional i := by
  show (List.compareLex compare _ _).isLE ↔ _
  simp only [targetScore, List.compareLex_cons_cons, List.compareLex_nil_nil, targetRank,
    Mask.count_eq_card, Mask.toFinset_and, Prod.Lex.le_iff, Ordering.isLE_then_iff_or, ofLex_toLex,
    compare_lt_iff_lt, compare_eq_iff_eq, Int.ofNat_lt, Int.ofNat_inj, Ordering.isLE_eq, and_true,
    ← le_iff_lt_or_eq]

theorem ranks_targetScore (source target : Mask) (optional : List Mask) :
    Ranks (atLeast (targetScore source target optional)) where
  total := by
    intro i j
    rw [atLeast_targetScore_iff, atLeast_targetScore_iff]
    exact le_total _ _
  trans := by
    intro i j k
    simp only [atLeast_targetScore_iff]
    exact fun hji hkj => hkj.trans hji

/-- The form that is taken of those that a list is made of: it has the wanted grammemes, those
before it that have them too have lower ranks, and those behind it have no higher ones. -/
structure Prefers (source target : Mask) (optional : List Mask) (before : List Inflection)
    (b : Inflection) (after : List Inflection) : Prop where
  includes : b.grammemes.includes target
  before_lt : ∀ i ∈ before, i.grammemes.includes target →
    targetRank source target optional i < targetRank source target optional b
  after_le : ∀ i ∈ after, i.grammemes.includes target →
    targetRank source target optional i ≤ targetRank source target optional b

/-- No form with the wanted grammemes has a higher rank than the one that is taken. -/
theorem Prefers.rank_le {before after : List Inflection}
    (h : Prefers source target optional before b after) (hi : i ∈ before ++ b :: after)
    (hincludes : i.grammemes.includes target) :
    targetRank source target optional i ≤ targetRank source target optional b := by
  rcases List.mem_append.1 hi with hi | hi
  · exact (h.before_lt i hi hincludes).le
  · rcases List.mem_cons.1 hi with rfl | hi
    · exact le_rfl
    · exact h.after_le i hi hincludes

theorem exists_prefers (h : target? source target optional forms = some b) :
    ∃ before after, forms = before ++ b :: after ∧
      Prefers source target optional before b after := by
  obtain ⟨front, back, hsplit, hfront, hback⟩ :=
    (ranks_targetScore source target optional).exists_eq_append_of_best? h
  obtain ⟨before, rest, rfl, hbefore, hrest⟩ := List.filter_eq_append_iff.1 hsplit
  obtain ⟨skipped, after, rfl, hskipped, hb, hafter⟩ := List.filter_eq_cons_iff.1 hrest
  refine ⟨before ++ skipped, after, by simp, hb, ?_, ?_⟩
  · intro i hi hincludes
    rcases List.mem_append.1 hi with hi | hi
    · have hlow := hfront i (by rw [← hbefore]; exact List.mem_filter.2 ⟨hi, hincludes⟩)
      rwa [atLeast_targetScore_iff, not_le] at hlow
    · exact absurd hincludes (hskipped i hi)
  · intro i hi hincludes
    rw [← atLeast_targetScore_iff]
    exact hback i (by rw [← hafter]; exact List.mem_filter.2 ⟨hi, hincludes⟩)

end Inflection

namespace PatternStore

/-- **Any word in another form of any pattern.**  No offset in the word is out of range.  A word
that has all wanted grammemes stays as it is.  Otherwise the forms of the pattern are read.  If none
of them has the wanted grammemes, then the word has no such form.  Else the word loses the longest
suffix that it may have, and gets that of the first form of the highest rank. -/
theorem reinflect_exchanges (s : PatternStore) (p : Pattern) (source target : Mask)
    (optional : List Mask) (word : String) :
    (∀ forms, ∃ result, Inflection.tryReinflect source target optional word forms = .ok result) ∧
    (target = 0 ∨ source.includes target →
      s.reinflect p source target optional word = .ok (some word)) ∧
    (¬ (target = 0 ∨ source.includes target) →
      (∀ e, s.inflections p = .error e →
        s.reinflect p source target optional word = .error e) ∧
      ∀ forms, s.inflections p = .ok forms →
        ((∀ i ∈ forms, ¬ i.grammemes.includes target) →
          s.reinflect p source target optional word = .ok none) ∧
        ((∃ i ∈ forms, i.grammemes.includes target) → ∃ stem ending before b after,
          word = stem ++ ending ∧ Inflection.Loses source word forms ending ∧
          forms = before ++ b :: after ∧
          Inflection.Prefers source target optional before b after ∧
          Inflection.tryReinflect source target optional word forms =
            .ok (some (stem ++ b.suffix)) ∧
          s.reinflect p source target optional word = .ok (some (stem ++ b.suffix)))) := by
  refine ⟨fun forms => ⟨_, Inflection.tryReinflect_eq ..⟩, fun hkeep => ?_, fun hchange => ⟨?_, ?_⟩⟩
  · rw [reinflect, if_pos hkeep]
    rfl
  · intro e he
    rw [reinflect, if_neg hchange, he]
    rfl
  intro forms hforms
  have hresult := Inflection.tryReinflect_eq source target optional word forms
  rw [if_neg hchange] at hresult
  rw [reinflect_eq_ok hforms, Inflection.reinflect_eq, if_neg hchange]
  constructor
  · intro hnone
    have hnil := List.filter_eq_nil_iff.2 hnone
    rw [Inflection.target?, hnil]
    rfl
  · rintro ⟨i, hi, hincludes⟩
    cases hbest : Inflection.target? source target optional forms with
    | none =>
      have hnil := best?_eq_none_iff.1 hbest
      exact absurd hincludes (List.filter_eq_nil_iff.1 hnil i hi)
    | some b =>
      have hloses := Inflection.loses_suffixToCut source word forms
      obtain ⟨before, after, hsplit, hprefers⟩ := Inflection.exists_prefers hbest
      rw [hbest] at hresult
      exact ⟨_, _, before, b, after, Inflection.eq_stem_append hloses.ends, hloses, hsplit,
        hprefers, hresult, rfl⟩

/-- Of the plurals of a masculine noun the feminine one has fewer of its grammemes, and the
diminutive one more that are not wanted. -/
theorem reinflect_exchanges_boy : ∃ image d s p forms,
    boyLexicon.compile = .ok image ∧ Dictionary.load image = .ok d ∧
      d.store.patterns = some s ∧ ¬ ((16 : Mask) = 0 ∨ Mask.includes 36 16) ∧
      s.inflections p = .ok forms ∧
      ([("itos", 21), ("as", 18), ("os", 20)].map (s.inflectionOf p)) <:+ forms ∧
      (∀ i ∈ [("itos", 21), ("as", 18), ("os", 20)].map (s.inflectionOf p),
        i.grammemes.includes 16) ∧
      s.reinflect p 36 16 [] "niño" = .ok (some "niños") := by
  obtain ⟨image, d, s, p, himage, hload, hs, hforms⟩ := exists_inflections_boyLexicon
  have hchange : ¬ ((16 : Mask) = 0 ∨ Mask.includes 36 16) := by decide
  have hplurals : ∀ i ∈ [("itos", 21), ("as", 18), ("os", 20)].map (s.inflectionOf p),
      i.grammemes.includes 16 := by
    rw [List.forall_mem_map]
    show ∀ form ∈ [("itos", (21 : Mask)), ("as", 18), ("os", 20)], form.2.includes 16
    decide
  refine ⟨image, d, s, p, _, himage, hload, hs, hchange, hforms, List.suffix_cons _ _, hplurals, ?_⟩
  obtain ⟨-, -, hchanged⟩ := reinflect_exchanges s p 36 16 [] "niño"
  obtain ⟨stem, ending, before, b, after, hword, hloses, hsplit, hprefers, -, hresult⟩ :=
    ((hchanged hchange).2 _ hforms).2
      ⟨s.inflectionOf p ("os", 20), by simp, hplurals _ (by simp)⟩
  -- the word loses the suffix of the singular
  obtain rfl : ending = "o" := by
    have hends : "o".toList <:+ ending.toList :=
      hloses.longest (s.inflectionOf p ("o", 36)) (by simp)
        (.inr (show Mask.includes 36 36 by decide))
        (Inflection.endsWord_iff.2 (show "o".toList <:+ "niño".toList by decide))
    rcases hloses.origin with rfl | ⟨k, hk, hallowed, rfl⟩
    · exact absurd hends (by decide)
    · obtain ⟨form, hform, rfl⟩ := List.mem_map.1 hk
      have honly : ∀ form ∈ [("o", (36 : Mask)), ("itos", 21), ("as", 18), ("os", 20)],
          (36 : Mask) = 0 ∨ Mask.includes 36 form.2 → form.1 = "o" := by decide
      exact honly form hform hallowed
  obtain rfl : stem = "niñ" := (String.append_left_inj "o").1 hword.symm
  -- and gets that of the plural of the highest rank
  obtain ⟨form, hform, rfl⟩ : ∃ form ∈ [("o", 36), ("itos", 21), ("as", 18), ("os", 20)],
      s.inflectionOf p form = b := by
    rw [← List.mem_map, hsplit]
    simp
  have hmem : s.inflectionOf p ("os", 20) ∈ before ++ s.inflectionOf p form :: after := by
    rw [← hsplit]
    simp
  have hrank := hprefers.rank_le hmem (show Mask.includes 20 16 by decide)
  have honly : ∀ form ∈ [("o", (36 : Mask)), ("itos", 21), ("as", 18), ("os", 20)],
      form.2.includes 16 →
        toLex (((20 : Mask).priorityScore []).toInt, toLex (((20 : Mask).toFinset ∩
          (36 : Mask).toFinset).card,
            ((16 : Mask).toFinset.card : ℤ) - (20 : Mask).toFinset.card)) ≤
        toLex ((form.2.priorityScore []).toInt, toLex ((form.2.toFinset ∩
          (36 : Mask).toFinset).card, ((16 : Mask).toFinset.card : ℤ) - form.2.toFinset.card)) →
        form.1 = "os" := by decide +kernel
  rw [hresult]
  exact congrArg (fun suffix => Except.ok (some ("niñ" ++ suffix)))
    (honly form hform hprefers.includes hrank)

/-! ## There and back -/

/-- **Words are brought into another form and back.**  Where no form of a pattern has all grammemes
of another one, a stem with the suffix of one form becomes the stem with the suffix of any other,
whatever suffixes may end it, and what it becomes is brought back to what it was. -/
theorem reinflect_swaps_back {s : PatternStore} {p : Pattern} {forms : List Inflection}
    (hforms : s.inflections p = .ok forms) (h : Inflection.Incomparable forms) {i j : Inflection}
    (hi : i ∈ forms) (hj : j ∈ forms) (optional : List Mask) (stem : String) :
    s.reinflect p i.grammemes j.grammemes optional (stem ++ i.suffix) =
        .ok (some (stem ++ j.suffix)) ∧
      s.reinflect p j.grammemes i.grammemes optional (stem ++ j.suffix) =
        .ok (some (stem ++ i.suffix)) := by
  constructor
  · rw [reinflect_eq_ok hforms, h.reinflect_append hi hj]
  · rw [reinflect_eq_ok hforms, h.reinflect_append hj hi]

/-- A compiled lexicon with a pattern of two forms, one for each number. -/
theorem exists_inflections_catLexicon : ∃ image d s p i j,
    Dictionary.catLexicon.compile = .ok image ∧ Dictionary.load image = .ok d ∧
      d.store.patterns = some s ∧ s.inflections p = .ok [i, j] ∧
      (i.suffix = "" ∧ i.grammemes = 4) ∧ j.suffix = "s" ∧ j.grammemes = 2 := by
  obtain ⟨image, himage⟩ := Dictionary.exists_compile_catLexicon
  obtain ⟨d, s, v, hload, hs, hshows⟩ :=
    Dictionary.exists_shows_of_compile himage List.mem_cons_self
  have hsingular : Dictionary.catLexicon.maskOf ["singular"] = 4 := by decide +kernel
  have hplural : Dictionary.catLexicon.maskOf ["plural"] = 2 := by decide +kernel
  refine ⟨image, d, s, v, s.inflectionOf v ("", 4), s.inflectionOf v ("s", 2), himage, hload, hs,
    ?_, ⟨rfl, rfl⟩, rfl, rfl⟩
  rw [hshows.inflections_eq, ← hsingular, ← hplural]
  rfl

/-- A word in the singular that ends as if it were in the plural. -/
theorem reinflect_swaps_back_cats : ∃ image d s p forms,
    Dictionary.catLexicon.compile = .ok image ∧ Dictionary.load image = .ok d ∧
      d.store.patterns = some s ∧ s.inflections p = .ok forms ∧ Inflection.Incomparable forms ∧
      (∃ i ∈ forms, ∃ j ∈ forms, i.grammemes = 4 ∧ j.grammemes = 2) ∧
      s.reinflect p 4 2 [] "cats" = .ok (some "catss") ∧
      s.reinflect p 2 4 [] "catss" = .ok (some "cats") := by
  obtain ⟨image, d, s, p, i, j, himage, hload, hs, hforms, ⟨hi, hsingular⟩, hj, hplural⟩ :=
    exists_inflections_catLexicon
  have hincomparable : Inflection.Incomparable [i, j] := by
    rw [Inflection.Incomparable, List.pairwise_pair, hsingular, hplural]
    decide
  refine ⟨image, d, s, p, _, himage, hload, hs, hforms, hincomparable,
    ⟨i, by simp, j, by simp, hsingular, hplural⟩, ?_⟩
  obtain ⟨hthere, hback⟩ := reinflect_swaps_back hforms hincomparable
    (show i ∈ [i, j] by simp) (show j ∈ [i, j] by simp) [] "cats"
  rw [hsingular, hplural, hi, hj] at hthere hback
  exact ⟨hthere, hback⟩

end PatternStore

end Paradigm
