import Mathlib
import Paradigm.Pattern
import Paradigm.Proofs.Best
import Paradigm.Proofs.Outcome
import Paradigm.Proofs.Text.Units

/-!
# The search through the forms of a pattern

One pass through the forms of a pattern finds both what is to be cut off a word and the form to
bring it into.  These are two selections from the forms, which do not depend on each other: the
first of the longest suffixes and the first of the highest scores.  The word ends with what is cut
off, so that the offset of the cut in bytes lies between two of its characters.

## Main definitions

* `Inflection.longer`: the preference for longer suffixes
* `Inflection.suffixToCut`, `Inflection.target?`: the two selections
* `Inflection.stem`: a word without a suffix

## Main results

* `Checked.firstBytes_append`: a text is cut behind its front
* `Inflection.suffixToCut_cases`: the longest suffix of the forms that come into question
* `Inflection.foldl_meet`: what a search through the forms finds
* `Inflection.tryReinflect_eq`: a word brought into another form, without an offset out of range
-/

namespace Paradigm

/-! ## Cutting texts -/

namespace Checked

theorem charsOfBytes?_append (cs ds : List Char) :
    charsOfBytes? (String.ofList cs).utf8ByteSize (cs ++ ds) = some cs := by
  rw [String.utf8ByteSize_ofList]
  induction cs with
  | nil => rw [String.utf8Len_nil, charsOfBytes?]
  | cons c cs ih =>
    -- a character has a byte at least
    obtain ⟨n, hn⟩ : ∃ n, String.utf8Len (c :: cs) = n + 1 :=
      Nat.exists_eq_add_one.2 (Nat.add_pos_right _ c.utf8Size_pos)
    have hrest : n + 1 - c.utf8Size = String.utf8Len cs := by
      rw [← hn, String.utf8Len_cons, Nat.add_sub_cancel]
    have hle : c.utf8Size ≤ n + 1 := by
      rw [← hn, String.utf8Len_cons]
      exact Nat.le_add_left _ _
    rw [hn, List.cons_append, charsOfBytes?, if_pos hle, hrest, ih, Option.map_some]

/-- A text is cut behind its front. -/
theorem firstBytes_append (s t : String) : firstBytes (s ++ t) s.utf8ByteSize = .ok s := by
  have hchars := charsOfBytes?_append s.toList t.toList
  rw [String.ofList_toList] at hchars
  rw [firstBytes, String.toList_append, hchars]
  exact congrArg Except.ok (String.ofList_toList)

end Checked

namespace Inflection

variable {forms : List Inflection} {i : Inflection} {source target : Mask} {optional : List Mask}
  {word : String}

/-! ## Endings -/

theorem endsWord_iff : i.endsWord word ↔ i.suffix.toList <:+ word.toList :=
  List.isSuffixOf_iff_suffix

/-- A word without a suffix of a given length at its end. -/
def stem (word ending : String) : String :=
  String.ofList (word.toList.take (word.toList.length - ending.toList.length))

theorem stem_append (s t : String) : stem (s ++ t) t = s := by
  rw [stem, String.toList_append, List.length_append, Nat.add_sub_cancel, List.take_left,
    String.ofList_toList]

/-- A word that ends in a suffix is put together from its stem and the suffix. -/
theorem eq_stem_append {ending : String} (h : ending.toList <:+ word.toList) :
    word = stem word ending ++ ending := by
  obtain ⟨front, h⟩ := h
  have hword : word = String.ofList front ++ ending := by
    rw [← String.toList_inj, String.toList_append, String.toList_ofList, h]
  rw [hword, stem_append]

/-- The offset at which a word is cut lies before its end. -/
theorem firstBytes_sub {ending : String} (h : ending.toList <:+ word.toList) :
    Checked.sub word.utf8ByteSize ending.utf8ByteSize >>= Checked.firstBytes word =
      .ok (stem word ending) := by
  obtain ⟨s, rfl⟩ : ∃ s, word = s ++ ending := ⟨_, eq_stem_append h⟩
  rw [String.utf8ByteSize_append, Checked.sub_eq_ok (Nat.le_add_left _ _), Except.ok_bind,
    Nat.add_sub_cancel, Checked.firstBytes_append, stem_append]

/-! ## The suffix that is cut off -/

/-- Prefers longer suffixes. -/
def longer (i j : Inflection) : Bool := j.suffixLength ≤ i.suffixLength

theorem ranks_longer : Ranks longer where
  total := by
    intro i j
    simp only [longer, decide_eq_true_eq]
    exact Nat.le_total _ _
  trans := by
    intro i j k
    simp only [longer, decide_eq_true_eq]
    exact fun hij hjk => hjk.trans hij

/-- The suffix to cut off a word with the given grammemes: the longest that ends the word among the
forms that it may be in. -/
def suffixToCut (source : Mask) (word : String) (forms : List Inflection) : String :=
  (best? longer (forms.filter fun i =>
    (source == 0 || source.includes i.grammemes) && i.endsWord word)).elim "" suffix

/-- The suffix is that of a form which comes into question, and no longer one does; if no form comes
into question, then nothing is cut off. -/
theorem suffixToCut_cases (source : Mask) (word : String) (forms : List Inflection) :
    (suffixToCut source word forms = "" ∧
        ∀ i ∈ forms, source = 0 ∨ source.includes i.grammemes → ¬ i.endsWord word) ∨
      ∃ b ∈ forms, suffixToCut source word forms = b.suffix ∧
        (source = 0 ∨ source.includes b.grammemes) ∧ b.endsWord word ∧
        ∀ i ∈ forms, source = 0 ∨ source.includes i.grammemes → i.endsWord word →
          longer b i := by
  have hmem : ∀ i, i ∈ forms.filter (fun k =>
      (source == 0 || source.includes k.grammemes) && k.endsWord word) ↔
        i ∈ forms ∧ (source = 0 ∨ source.includes i.grammemes) ∧ i.endsWord word := by
    intro i
    rw [List.mem_filter, Bool.and_eq_true, Bool.or_eq_true, beq_iff_eq]
  unfold suffixToCut
  cases hbest : best? longer (forms.filter fun i =>
      (source == 0 || source.includes i.grammemes) && i.endsWord word) with
  | none =>
    refine .inl ⟨rfl, fun i hi hsource hends => ?_⟩
    have hnil := (hmem i).2 ⟨hi, hsource, hends⟩
    rw [best?_eq_none_iff.1 hbest] at hnil
    cases hnil
  | some b =>
    obtain ⟨hb, hsource, hends⟩ := (hmem b).1 (mem_of_best? hbest)
    refine .inr ⟨b, hb, rfl, hsource, hends, fun i hi hisource hiends => ?_⟩
    exact ranks_longer.atLeast_of_best? hbest i ((hmem i).2 ⟨hi, hisource, hiends⟩)

theorem suffixToCut_isSuffix (source : Mask) (word : String) (forms : List Inflection) :
    (suffixToCut source word forms).toList <:+ word.toList := by
  rcases suffixToCut_cases source word forms with ⟨heq, -⟩ | ⟨b, -, heq, -, hends, -⟩
  · rw [heq]
    exact List.nil_suffix
  · rw [heq]
    exact endsWord_iff.1 hends

/-- What is cut off is replaced by a longer suffix. -/
theorem elim_keepBest_longer (best : Option Inflection) (i : Inflection) :
    (keepBest longer best i).elim "" suffix =
      if Text.Units.length (best.elim "" suffix) < i.suffixLength then i.suffix
      else best.elim "" suffix := by
  cases best with
  | none =>
    show i.suffix = if 0 < i.suffixLength then i.suffix else ""
    split
    · rfl
    · rename_i hempty
      exact Text.units_injective (List.length_eq_zero_iff.1 (Nat.eq_zero_of_not_pos hempty))
  | some b =>
    show (if longer b i then b else i).suffix =
      if b.suffixLength < i.suffixLength then i.suffix else b.suffix
    by_cases h : b.suffixLength < i.suffixLength
    · rw [if_pos h, if_neg]
      simpa [longer] using h
    · rw [if_neg h, if_pos]
      simpa [longer] using h

/-- A further form takes the place of those that were met if it comes into question and its suffix
is longer. -/
theorem suffixToCut_concat (source : Mask) (word : String) (forms : List Inflection)
    (i : Inflection) : suffixToCut source word (forms ++ [i]) =
      if (source == 0 || source.includes i.grammemes) &&
          decide (Text.Units.length (suffixToCut source word forms) < i.suffixLength) &&
          i.endsWord word then i.suffix
      else suffixToCut source word forms := by
  rw [suffixToCut, best?_filter_concat]
  split
  · rename_i hcandidate
    rw [Bool.and_eq_true] at hcandidate
    rw [elim_keepBest_longer, hcandidate.1, hcandidate.2, Bool.true_and, Bool.and_true]
    simp only [decide_eq_true_eq]
    rfl
  · rename_i hnone
    rw [if_neg]
    · rfl
    · intro hcuts
      simp only [Bool.and_eq_true] at hcuts hnone
      exact hnone ⟨hcuts.1.1, hcuts.2⟩

/-! ## The form to take -/

/-- The form to bring a word into: of those with all wanted grammemes the first of the highest
score. -/
def target? (source target : Mask) (optional : List Mask) (forms : List Inflection) :
    Option Inflection :=
  best? (atLeast (targetScore source target optional)) (forms.filter (·.grammemes.includes target))

theorem target?_concat (source target : Mask) (optional : List Mask) (forms : List Inflection)
    (i : Inflection) : target? source target optional (forms ++ [i]) =
      if i.grammemes.includes target then
        keepBest (atLeast (targetScore source target optional))
          (target? source target optional forms) i
      else target? source target optional forms := by
  rw [target?, best?_filter_concat]
  rfl

/-! ## One pass -/

/-- What a search knows after it met some forms. -/
def found (source target : Mask) (optional : List Mask) (word : String)
    (forms : List Inflection) : Search where
  cutLength := Text.Units.length (suffixToCut source word forms)
  cutBytes := (suffixToCut source word forms).utf8ByteSize
  form? := target? source target optional forms

theorem meet_found (source target : Mask) (optional : List Mask) (word : String)
    (forms : List Inflection) (i : Inflection) :
    (found source target optional word forms).meet source target optional word i =
      found source target optional word (forms ++ [i]) := by
  rw [Search.meet, Search.meetSource, found, found, suffixToCut_concat, target?_concat]
  dsimp only
  -- the two maxima do not depend on each other
  split
  · rw [Search.meetTarget]
    split <;> rfl
  · rw [Search.meetTarget]
    split <;> rfl

/-- A search finds the suffix to cut off and the form to take. -/
theorem foldl_meet (source target : Mask) (optional : List Mask) (word : String)
    (forms : List Inflection) : forms.foldl (Search.meet source target optional word) .start =
      found source target optional word forms := by
  induction forms using List.reverseRecOn with
  | nil => rfl
  | append_singleton forms i ih => rw [List.foldl_concat, ih, meet_found]

/-- **A word is brought into another form without an offset out of range**: what it is to lose is
cut off at its end. -/
theorem tryReinflect_eq (source target : Mask) (optional : List Mask) (word : String)
    (forms : List Inflection) : tryReinflect source target optional word forms = .ok
      (if target = 0 ∨ source.includes target then some word
      else (target? source target optional forms).map fun i =>
        stem word (suffixToCut source word forms) ++ i.suffix) := by
  rw [tryReinflect, foldl_meet, found]
  split
  · rfl
  cases target? source target optional forms with
  | none => rfl
  | some i =>
    have hcut := firstBytes_sub (suffixToCut_isSuffix source word forms)
    obtain ⟨offset, hoffset, hcut⟩ := Except.bind_eq_ok.1 hcut
    dsimp only
    rw [hoffset, Except.ok_bind, hcut]
    rfl

theorem reinflect_eq (source target : Mask) (optional : List Mask) (word : String)
    (forms : List Inflection) : reinflect source target optional word forms =
      if target = 0 ∨ source.includes target then some word
      else (target? source target optional forms).map fun i =>
        stem word (suffixToCut source word forms) ++ i.suffix := by
  rw [reinflect, tryReinflect_eq]
  rfl

end Inflection

end Paradigm
