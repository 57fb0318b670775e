import Mathlib
import Paradigm.Proofs.Grammeme
import Paradigm.Proofs.Pattern.Surface

/-!
# Forms with incomparable grammemes

Where no form of a pattern has all grammemes of another one, the grammemes of a form single it out.
A word in one form is then brought into another form by exchanging the suffixes of these two forms.

## Main definitions

* `Inflection.Incomparable`: no form has all grammemes of another one

## Main results

* `Inflection.Incomparable.filter_includes`: the forms with the grammemes of a form
* `Inflection.ofSurface_eq_singleton`: a word that may be in one form alone
* `Inflection.reinflect_append`: a word of a stem and a suffix in another form
-/

namespace Paradigm

/-! ## One candidate alone -/

/-- Of elements that are unrelated among themselves, one alone is related to a given one of them. -/
theorem filter_eq_singleton {α : Type} {p : α → Bool} {as : List α} {a : α}
    (h : as.Pairwise fun b c => (c = a → ¬ p b) ∧ (b = a → ¬ p c)) (ha : a ∈ as) (hp : p a) :
    as.filter p = [a] := by
  obtain ⟨before, after, rfl⟩ := List.append_of_mem ha
  -- neither what comes before the element nor what comes after it is kept
  obtain ⟨-, hafter, hbefore⟩ := List.pairwise_append.1 h
  have hnone : before.filter p = [] := by
    rw [List.filter_eq_nil_iff]
    intro b hb
    exact (hbefore b hb a List.mem_cons_self).1 rfl
  have hnone' : after.filter p = [] := by
    rw [List.filter_eq_nil_iff]
    intro c hc
    exact ((List.pairwise_cons.1 hafter).1 c hc).2 rfl
  rw [List.filter_append, List.filter_cons_of_pos hp, hnone, hnone', List.nil_append]

/-- An element that is singled out by one condition and has another one is singled out by both. -/
theorem filter_and_eq_singleton {α : Type} {p q : α → Bool} {as : List α} {a : α}
    (hp : as.filter p = [a]) (hq : q a) : as.filter (fun b => p b && q b) = [a] := by
  have hand : ∀ b ∈ as, (p b && q b) = (q b && p b) := fun b _ => Bool.and_comm _ _
  rw [List.filter_congr hand, ← List.filter_filter, hp]
  exact List.filter_cons_of_pos hq

namespace Mask

theorem includes_refl (mask : Mask) : mask.includes mask := by
  rw [includes_iff]
  intro i hi
  exact hi

theorem includes_zero (mask : Mask) : mask.includes 0 := by
  rw [includes_iff]
  intro i hi
  simp at hi

theorem includes_trans {a b c : Mask} (hab : a.includes b) (hbc : b.includes c) :
    a.includes c := by
  rw [includes_iff] at hab hbc ⊢
  intro i hi
  exact hab i (hbc i hi)

end Mask

namespace Inflection

theorem endsWord_append (i : Inflection) (s : String) : i.endsWord (s ++ i.suffix) := by
  rw [endsWord, String.toList_append, List.isSuffixOf_iff_suffix]
  exact List.suffix_append _ _

/-! ## Incomparable forms -/

/-- No form has all grammemes of another one. -/
def Incomparable (forms : List Inflection) : Prop :=
  forms.Pairwise fun i j => ¬ i.grammemes.includes j.grammemes ∧
    ¬ j.grammemes.includes i.grammemes

section Incomparable

variable {forms : List Inflection} {i j : Inflection} {mask : Mask} {word s : String}

/-- A form is the only one that has its grammemes. -/
theorem Incomparable.filter_includes (h : Incomparable forms) (hj : j ∈ forms) :
    forms.filter (·.grammemes.includes j.grammemes) = [j] := by
  apply filter_eq_singleton _ hj (Mask.includes_refl _)
  refine h.imp ?_
  rintro a b ⟨hab, hba⟩
  constructor
  · rintro rfl
    exact hab
  · rintro rfl
    exact hba

/-- A form is the only one whose grammemes it has. -/
theorem Incomparable.filter_included (h : Incomparable forms) (hi : i ∈ forms) :
    forms.filter (fun k => i.grammemes.includes k.grammemes) = [i] := by
  apply filter_eq_singleton _ hi (Mask.includes_refl _)
  refine h.imp ?_
  rintro a b ⟨hab, hba⟩
  constructor
  · rintro rfl
    exact hba
  · rintro rfl
    exact hab

theorem Incomparable.not_includes (h : Incomparable forms) (hi : i ∈ forms) (hj : j ∈ forms)
    (hne : i ≠ j) : ¬ i.grammemes.includes j.grammemes := by
  intro hincludes
  have hmem : i ∈ forms.filter (·.grammemes.includes j.grammemes) :=
    List.mem_filter.2 ⟨hi, hincludes⟩
  rw [h.filter_includes hj, List.mem_singleton] at hmem
  exact hne hmem

/-- A word that ends in the suffix of the only form whose grammemes it has is in this form. -/
theorem ofSurface_eq_singleton (h : forms.filter (fun k => mask.includes k.grammemes) = [i])
    (hends : i.endsWord word) : ofSurface word mask forms = [i] := by
  have hfits : forms.filter (Fits word mask) = [i] := by
    rw [← filter_and_eq_singleton (q := fun k => k.endsWord word) h hends]
    apply List.filter_congr
    intro k _
    rw [Bool.eq_iff_iff, decide_eq_true_iff, fits_iff]
  rw [ofSurface, foldl_meetSurface, hfits]
  rfl

/-- The suffix of the only form whose grammemes a word has is cut off. -/
theorem Incomparable.suffixToCut_append (h : Incomparable forms) (hi : i ∈ forms)
    (hne : i.grammemes ≠ 0) : suffixToCut i.grammemes (s ++ i.suffix) forms = i.suffix := by
  unfold suffixToCut
  rw [beq_eq_false_iff_ne.2 hne]
  simp only [Bool.false_or]
  rw [filter_and_eq_singleton (h.filter_included hi) (endsWord_append i s), best?_singleton,
    Option.elim]

/-- A word of a stem and the suffix of one form becomes the stem with the suffix of another. -/
theorem Incomparable.reinflect_append (h : Incomparable forms) (hi : i ∈ forms) (hj : j ∈ forms)
    (optional : List Mask) : reinflect i.grammemes j.grammemes optional (s ++ i.suffix) forms =
      some (s ++ j.suffix) := by
  rw [reinflect_eq]
  by_cases hij : i = j
  · subst hij
    rw [if_pos (Or.inr (Mask.includes_refl _))]
  -- two incomparable sets are not empty, as all sets include the empty one
  have hnot := h.not_includes hi hj hij
  have hsource : i.grammemes ≠ 0 := by
    intro hzero
    apply h.not_includes hj hi (Ne.symm hij)
    rw [hzero]
    exact Mask.includes_zero _
  have htarget : j.grammemes ≠ 0 := by
    intro hzero
    apply hnot
    rw [hzero]
    exact Mask.includes_zero _
  rw [if_neg (not_or.2 ⟨htarget, hnot⟩), target?, h.filter_includes hj, best?_singleton,
    Option.map_some, h.suffixToCut_append hi hsource, stem_append]

end Incomparable

end Inflection

end Paradigm
