import Mathlib
import Paradigm.Proofs.Grammeme.PriorityScore
import Paradigm.Proofs.Pattern.Surface

/-!
# The form that stands for a word

The form that stands for the words of a pattern is one of the highest rank.  The rank is told by the
attributes of lemmas first, of which each counts more than all behind it together, then by the
grammemes that are asked for, then by having few grammemes.  Among forms of one rank a suffix of
dictionary forms decides, and without any the length of the suffix.

## Main definitions

* `Inflection.lemmaRank`: the rank of a form
* `Inflection.Settles`: the choice among forms of one rank

## Main results

* `Inflection.bestLemmas_eq_filter`: the forms of the highest rank
* `Inflection.exists_settles`: what is chosen among them
* `PatternStore.selected_lemma`: the form that stands for the words of a stored pattern
-/

namespace Paradigm

namespace Inflection

variable {forms : List Inflection} {i j : Inflection} {requested : Mask} {attributes : List Mask}

/-! ## Ranks -/

/-- The rank of a form: by which of the attributes it meets, then by the number of grammemes that
are asked for, then by having fewer grammemes, in lexicographic order. -/
def lemmaRank (requested : Mask) (attributes : List Mask) (i : Inflection) :
    List Bool ×ₗ ℕ ×ₗ ℕᵒᵈ :=
  toLex (attributes.map i.grammemes.meets,
    toLex ((i.grammemes.toFinset ∩ requested.toFinset).card,
      OrderDual.toDual i.grammemes.toFinset.card))

/-- Scores are compared as ranks, if all attributes have a digit in the score. -/
theorem isLE_compare_lemmaScore_iff (h : attributes.length ≤ 63) :
    (compare (lemmaScore requested attributes i) (lemmaScore requested attributes j)).isLE ↔
      lemmaRank requested attributes i ≤ lemmaRank requested attributes j := by
  show (List.compareLex compare _ _).isLE ↔ _
  simp only [lemmaScore, List.compareLex_cons_cons, List.compareLex_nil_nil, lemmaRank,
    Mask.count_eq_card, Mask.toFinset_and, Prod.Lex.le_iff, Ordering.isLE_then_iff_or, ofLex_toLex,
    compare_lt_iff_lt, compare_eq_iff_eq, Mask.priorityScore_lt_iff h, Mask.priorityScore_inj h,
    Int.ofNat_lt, Int.ofNat_inj, Ordering.isLE_eq, and_true, ← le_iff_lt_or_eq, Int.neg_le_neg_iff,
    Int.ofNat_le, OrderDual.toDual_le_toDual]

/-- The forms of the highest score are those that no form exceeds in rank. -/
theorem bestLemmas_eq_filter (h : attributes.length ≤ 63) (requested : Mask)
    (forms : List Inflection) : bestLemmas requested attributes forms = forms.filter fun i =>
      ∀ j ∈ forms, lemmaRank requested attributes j ≤ lemmaRank requested attributes i := by
  rw [bestLemmas, toList_foldl_meet]
  simp only [isLE_compare_lemmaScore_iff h]

theorem bestLemmas_eq_nil_iff : bestLemmas requested attributes forms = [] ↔ forms = [] :=
  toList_foldl_meet_eq_nil_iff _ forms

/-! ## Forms of one rank -/

/-- The choice from candidates, split at the one that is chosen: it is the first with one of the
given suffixes, or else the first with the shortest suffix. -/
def Settles (suffixes : List String) (before : List Inflection) (i : Inflection)
    (after : List Inflection) : Prop :=
  (i.suffix ∈ suffixes ∧ ∀ j ∈ before, j.suffix ∉ suffixes) ∨
    (∀ j ∈ before ++ i :: after, j.suffix ∉ suffixes) ∧
      (∀ j ∈ before, i.suffixLength < j.suffixLength) ∧
      ∀ j ∈ after, i.suffixLength ≤ j.suffixLength

/-- Prefers shorter suffixes. -/
def shorter (i j : Inflection) : Bool := i.suffixLength ≤ j.suffixLength

theorem ranks_shorter : Ranks shorter where
  total := by
    intro i j
    simp only [shorter, decide_eq_true_eq]
    exact Nat.le_total _ _
  trans := by
    intro i j k
    simp only [shorter, decide_eq_true_eq]
    exact fun hij hjk => hij.trans hjk

/-- The first candidate with one of the suffixes is taken, whatever was shortest before it. -/
theorem lemmaFrom_append {suffixes : List String} {before : List Inflection}
    (hbefore : ∀ j ∈ before, j.suffix ∉ suffixes) (hi : i.suffix ∈ suffixes)
    (shortest : Inflection) (after : List Inflection) :
    lemmaFrom suffixes shortest (before ++ i :: after) = i := by
  induction before generalizing shortest with
  | nil => rw [List.nil_append, lemmaFrom, if_pos (List.contains_iff_mem.2 hi)]
  | cons j before ih =>
    obtain ⟨hj, hrest⟩ := List.forall_mem_cons.1 hbefore
    rw [List.cons_append, lemmaFrom, if_neg (mt List.contains_iff_mem.1 hj), ih hrest]

/-- Without one of the suffixes the shortest is kept, the first of them on ties. -/
theorem lemmaFrom_of_forall_not_mem {suffixes : List String} {rest : List Inflection}
    (hrest : ∀ j ∈ rest, j.suffix ∉ suffixes) (shortest : Inflection) :
    some (lemmaFrom suffixes shortest rest) = best? shorter (shortest :: rest) := by
  rw [best?]
  induction rest generalizing shortest with
  | nil => rfl
  | cons j rest ih =>
    obtain ⟨hj, hrest⟩ := List.forall_mem_cons.1 hrest
    have hkeep : (if j.suffixLength < shortest.suffixLength then j else shortest) =
        if shorter shortest j then shortest else j := by
      simp only [shorter, decide_eq_true_eq, ← Nat.not_lt, ite_not]
    rw [lemmaFrom, if_neg (mt List.contains_iff_mem.1 hj), List.foldl_cons, ih hrest, hkeep]

/-- Among candidates one is chosen that settles the choice. -/
theorem exists_settles {candidates : List Inflection} (hne : candidates ≠ [])
    (lemmaSuffixes : List String) : ∃ before i after, candidates = before ++ i :: after ∧
      lemmaAmong lemmaSuffixes candidates = some i ∧
      Settles (if lemmaSuffixes = [] then [""] else lemmaSuffixes) before i after := by
  obtain ⟨first, rest, rfl⟩ := List.exists_cons_of_ne_nil hne
  have hamong : lemmaAmong lemmaSuffixes (first :: rest) =
      some (lemmaFrom (if lemmaSuffixes = [] then [""] else lemmaSuffixes) first
        (first :: rest)) := by
    simp only [lemmaAmong, List.isEmpty_iff]
  rw [hamong]
  generalize (if lemmaSuffixes = [] then [""] else lemmaSuffixes) = suffixes
  cases hfind : (first :: rest).find? fun i => suffixes.contains i.suffix with
  | some i =>
    obtain ⟨hi, before, after, hsplit, hnot⟩ := List.find?_eq_some_iff_append.1 hfind
    have hbefore : ∀ j ∈ before, j.suffix ∉ suffixes := by
      intro j hj hmem
      have hj' := hnot j hj
      rw [List.contains_iff_mem.2 hmem] at hj'
      cases hj'
    have hi' := List.contains_iff_mem.1 hi
    rw [hsplit, lemmaFrom_append hbefore hi']
    exact ⟨before, i, after, rfl, rfl, .inl ⟨hi', hbefore⟩⟩
  | none =>
    have hnot : ∀ j ∈ first :: rest, j.suffix ∉ suffixes := by
      intro j hj hmem
      exact List.find?_eq_none.1 hfind j hj (List.contains_iff_mem.2 hmem)
    -- the first candidate is compared with itself to begin with
    have hself : best? shorter (first :: first :: rest) = best? shorter (first :: rest) := by
      rw [best?, List.foldl_cons, if_pos (ranks_shorter.refl first), best?]
    obtain ⟨i, hi⟩ := Option.ne_none_iff_exists'.1 (mt best?_eq_none_iff.1 hne)
    obtain ⟨before, after, hsplit, hbefore, hafter⟩ := ranks_shorter.exists_eq_append_of_best? hi
    rw [lemmaFrom_of_forall_not_mem hnot, hself, hi]
    refine ⟨before, i, after, hsplit, rfl, .inr ⟨?_, ?_, ?_⟩⟩
    · rwa [← hsplit]
    · intro j hj
      simpa [shorter] using hbefore j hj
    · intro j hj
      simpa [shorter] using hafter j hj

end Inflection

namespace PatternStore

variable {s : PatternStore} {p : Pattern} {forms candidates : List Inflection} {requested : Mask}
  {attributes : List Mask}

/-! ## Stored patterns -/

theorem inflections_eq_nil_iff : s.inflections p = .ok [] ↔ p.record.inflectionCount = 0 := by
  rw [inflections, valuesFrom_eq_mapM]
  constructor
  · intro h
    have hlength := length_of_mapM_eq_ok h
    rwa [List.length_range', List.length_nil, eq_comm] at hlength
  · intro h
    rw [h]
    rfl

/-- The candidates of the highest score are told apart by suffixes of dictionary forms, which are
not read for a single one. -/
theorem lemma?_eq_of_best (hforms : s.inflections p = .ok forms)
    (hbest : Inflection.bestLemmas requested attributes forms = candidates) :
    (candidates = [] → s.lemma? p requested attributes = .ok none) ∧
    (∀ i, candidates = [i] → s.lemma? p requested attributes = .ok (some i)) ∧
    (1 < candidates.length → s.lemma? p requested attributes =
      (Inflection.lemmaAmong · candidates) <$> s.lemmaSuffixes p) := by
  rw [lemma?, hforms, Except.ok_bind, hbest]
  refine ⟨?_, ?_, ?_⟩
  · rintro rfl
    rfl
  · rintro i rfl
    rfl
  · intro hlength
    match candidates, hlength with
    | i :: j :: rest, _ => rfl

/-- If there are forms, then one of them stands for the words of the pattern, or a read fails. -/
theorem lemma?_ne_none (hforms : s.inflections p = .ok forms) (hne : forms ≠ []) :
    s.lemma? p requested attributes ≠ .ok none := by
  generalize hbest : Inflection.bestLemmas requested attributes forms = candidates
  have hcandidates : candidates ≠ [] := by
    rw [← hbest]
    exact mt Inflection.bestLemmas_eq_nil_iff.1 hne
  obtain ⟨-, hone, hmany⟩ := lemma?_eq_of_best hforms hbest
  match candidates, hcandidates with
  | [i], _ =>
    rw [hone i rfl]
    simp
  | i :: j :: rest, hcandidates =>
    rw [hmany (by simp)]
    intro hnone
    obtain ⟨suffixes, -, hnone⟩ := Except.map_eq_ok.1 hnone
    obtain ⟨-, k, -, -, hsome, -⟩ := Inflection.exists_settles hcandidates suffixes
    rw [hnone] at hsome
    cases hsome

/-- **The form that stands for the words of a pattern has the highest rank.**  There is none exactly
if the pattern has no forms.  A single form of the highest rank is taken without a look at the
suffixes of dictionary forms.  Of several the first with one of these suffixes is taken, where a
pattern that lists none has the empty one, and without any the first with the shortest suffix. -/
theorem selected_lemma (h : attributes.length ≤ 63) (s : PatternStore) (p : Pattern)
    (requested : Mask) :
    (s.lemma? p requested attributes = .ok none ↔ p.record.inflectionCount = 0) ∧
    (∀ e, s.inflections p = .error e → s.lemma? p requested attributes = .error e) ∧
    ∀ forms, s.inflections p = .ok forms → forms ≠ [] → ∃ candidates,
      candidates = (forms.filter fun i => ∀ j ∈ forms,
        Inflection.lemmaRank requested attributes j ≤
          Inflection.lemmaRank requested attributes i) ∧
      (∀ i, candidates = [i] → s.lemma? p requested attributes = .ok (some i)) ∧
      (candidates.length ≠ 1 →
        (∀ e, s.lemmaSuffixes p = .error e → s.lemma? p requested attributes = .error e) ∧
        ∀ suffixes, s.lemmaSuffixes p = .ok suffixes → ∃ before i after,
          candidates = before ++ i :: after ∧
          s.lemma? p requested attributes = .ok (some i) ∧
          Inflection.Settles (if suffixes = [] then [""] else suffixes) before i after) := by
  refine ⟨?none, ?failed, ?chosen⟩
  case none =>
    rw [← inflections_eq_nil_iff]
    constructor
    · intro hnone
      obtain ⟨forms, hforms, -⟩ := Except.bind_eq_ok.1 hnone
      by_contra hne
      refine lemma?_ne_none hforms ?_ hnone
      rintro rfl
      exact hne hforms
    · intro hforms
      exact (lemma?_eq_of_best hforms rfl).1 rfl
  case failed =>
    intro e he
    rw [lemma?, he]
    rfl
  case chosen =>
    intro forms hforms hne
    have hbest := Inflection.bestLemmas_eq_filter h requested forms
    obtain ⟨-, hone, hmany⟩ := lemma?_eq_of_best hforms hbest
    have hcandidates : Inflection.bestLemmas requested attributes forms ≠ [] :=
      mt Inflection.bestLemmas_eq_nil_iff.1 hne
    rw [hbest] at hcandidates
    refine ⟨_, rfl, hone, ?_⟩
    intro hlength
    have hlt := lt_of_le_of_ne (List.length_pos_of_ne_nil hcandidates) (Ne.symm hlength)
    rw [hmany hlt]
    constructor
    · intro e he
      rw [he]
      rfl
    · intro suffixes hsuffixes
      obtain ⟨before, i, after, hsplit, hchosen, hsettles⟩ :=
        Inflection.exists_settles hcandidates suffixes
      refine ⟨before, i, after, hsplit, ?_, hsettles⟩
      rw [hsuffixes, Except.map_ok, hchosen]

/-- Two spellings of the singular have the same rank, and the longer is a dictionary form.  Of the
forms of a noun with two genders, two have both grammemes that are asked for, and the diminutive has
one more. -/
theorem selected_lemma_axe_boy :
    (∃ image d s p forms, axeLexicon.compile = .ok image ∧ Dictionary.load image = .ok d ∧
      d.store.patterns = some s ∧ [(4 : Mask), 1].length ≤ 63 ∧ s.inflections p = .ok forms ∧
      forms ≠ [] ∧ s.lemmaSuffixes p = .ok ["e"] ∧
      s.lemma? p 2 [4, 1] = .ok (some (s.inflectionOf p ("e", 4)))) ∧
    ∃ image d s p, boyLexicon.compile = .ok image ∧ Dictionary.load image = .ok d ∧
      d.store.patterns = some s ∧ s.inflections p =
        .ok ([("o", 36), ("itos", 21), ("as", 18), ("os", 20)].map (s.inflectionOf p)) ∧
      s.lemma? p 20 [] = .ok (some (s.inflectionOf p ("os", 20))) := by
  have hrank (s : PatternStore) (p : Pattern) (requested : Mask) (attributes : List Mask)
      (form : String × Mask) :
      Inflection.lemmaRank requested attributes (s.inflectionOf p form) =
        toLex (attributes.map form.2.meets, toLex ((form.2.toFinset ∩ requested.toFinset).card,
          OrderDual.toDual form.2.toFinset.card)) := rfl
  constructor
  · obtain ⟨image, d, s, p, himage, hload, hs, hsuffixes, hforms⟩ := exists_inflections_axeLexicon
    have hlength : [(4 : Mask), 1].length ≤ 63 := by decide
    refine ⟨image, d, s, p, _, himage, hload, hs, hlength, hforms, by simp, hsuffixes, ?_⟩
    obtain ⟨candidates, hfilter, -, hmany⟩ :=
      (selected_lemma hlength s p 2).2.2 _ hforms (by simp)
    have hcandidates : candidates = [("", 4), ("e", 4)].map (s.inflectionOf p) := by
      rw [hfilter, List.filter_map]
      simp only [List.forall_mem_map, Function.comp_def, hrank]
      apply congrArg (List.map (s.inflectionOf p))
      decide +kernel
    obtain ⟨before, i, after, hsplit, hsome, hsettles⟩ :=
      (hmany (by rw [hcandidates]; simp)).2 _ hsuffixes
    have hmem : ∀ j, j ∈ before ++ i :: after ↔
        j = s.inflectionOf p ("", 4) ∨ j = s.inflectionOf p ("e", 4) := by
      intro j
      rw [← hsplit, hcandidates]
      exact List.mem_pair
    rw [hsome]
    rcases hsettles with ⟨hlisted, -⟩ | ⟨hnone, -⟩
    · rcases (hmem i).1 (by simp) with rfl | rfl
      · exact absurd hlisted (show "" ∉ ["e"] by decide)
      · rfl
    · exact absurd (show "e" ∈ ["e"] by decide) (hnone _ ((hmem _).2 (.inr rfl)))
  · obtain ⟨image, d, s, p, himage, hload, hs, hforms⟩ := exists_inflections_boyLexicon
    refine ⟨image, d, s, p, himage, hload, hs, hforms, ?_⟩
    obtain ⟨candidates, hfilter, hone, -⟩ :=
      (selected_lemma (show [].length ≤ 63 by decide) s p 20).2.2 _ hforms (by simp)
    apply hone
    rw [hfilter, List.filter_map]
    simp only [List.forall_mem_map, Function.comp_def, hrank]
    show _ = [("os", 20)].map (s.inflectionOf p)
    apply congrArg (List.map (s.inflectionOf p))
    decide +kernel

end PatternStore

end Paradigm
