import Mathlib
import Paradigm.Locale

/-!
# The language of a locale identifier

Whether an identifier can be read is decided by its first subtag.  An identifier that can be read
can still be read when it is cut at a character that is no letter and no separator, since no such
character comes before the end of the first subtag.

## Main definitions

* `Locale.firstSubtag`: the first subtag of an identifier

## Main results

* `Locale.head?_subtags`: it is the head of the subtags
* `Locale.parse_eq`: it decides what becomes of the identifier
* `Locale.parse_isOk_iff`, `Locale.parse_eq_empty_iff`, `Locale.parse_eq_invalidLanguage_iff`: the
  identifiers that can be read, and those that are refused
* `Locale.parse_takeWhile`, `Locale.three_le_length_takeWhile`: identifiers that are cut
-/

namespace Paradigm

namespace Locale

/-- The first piece of a tag between separators that is not empty. -/
def firstSubtag (cs : List Char) : List Char :=
  (cs.dropWhile isSeparator).takeWhile (!isSeparator ·)

/-! ## Pieces between separators -/

theorem exists_splitOnP {α : Type} (p : α → Bool) (as : List α) :
    ∃ rest, as.splitOnP p = as.takeWhile (!p ·) :: rest := by
  induction as with
  | nil => exact ⟨[], rfl⟩
  | cons a as ih =>
    obtain ⟨rest, hrest⟩ := ih
    rw [List.splitOnP_cons_eq_if_modifyHead]
    by_cases ha : p a
    · exact ⟨as.splitOnP p, by simp [ha]⟩
    · exact ⟨rest, by simp [ha, hrest]⟩

theorem head?_filter_splitOnP (cs : List Char) (h : firstSubtag cs ≠ []) :
    ((cs.splitOnP isSeparator).filter (!·.isEmpty)).head? = some (firstSubtag cs) := by
  induction cs with
  | nil => exact absurd rfl h
  | cons c cs ih =>
    unfold firstSubtag at *
    rw [List.splitOnP_cons_eq_if_modifyHead]
    by_cases hc : isSeparator c
    · -- the piece before a leading separator is empty
      rw [List.dropWhile_cons_of_pos hc] at h ⊢
      rw [if_pos hc, List.filter_cons_of_neg (by simp)]
      exact ih h
    · obtain ⟨rest, hrest⟩ := exists_splitOnP isSeparator cs
      rw [List.dropWhile_cons_of_neg hc, if_neg hc, hrest, List.modifyHead_cons,
        List.takeWhile_cons_of_pos (by simpa using hc), List.filter_cons_of_pos (by simp),
        List.head?_cons]

theorem filter_splitOnP_eq_nil (cs : List Char) (h : firstSubtag cs = []) :
    (cs.splitOnP isSeparator).filter (!·.isEmpty) = [] := by
  induction cs with
  | nil => rfl
  | cons c cs ih =>
    unfold firstSubtag at *
    by_cases hc : isSeparator c
    · rw [List.dropWhile_cons_of_pos hc] at h
      rw [List.splitOnP_cons_eq_if_modifyHead, if_pos hc, List.filter_cons_of_neg (by simp)]
      exact ih h
    · rw [List.dropWhile_cons_of_neg hc, List.takeWhile_cons_of_pos (by simpa using hc)] at h
      cases h

/-- The first of the subtags. -/
theorem head?_subtags (tag : String) : (subtags tag).head? =
    if firstSubtag tag.toList = [] then none
    else some (String.ofList (firstSubtag tag.toList)) := by
  rw [subtags, List.head?_map]
  split
  · rename_i hnil
    rw [filter_splitOnP_eq_nil _ hnil]
    rfl
  · rename_i hne
    rw [head?_filter_splitOnP _ hne]
    rfl

/-! ## Identifiers that can be read -/

/-- A language has two to four ASCII letters. -/
theorem isLanguage_ofList_iff {cs : List Char} :
    isLanguage (String.ofList cs) ↔ 2 ≤ cs.length ∧ cs.length ≤ 4 ∧ ∀ c ∈ cs, c.isAlpha := by
  simp only [isLanguage, Bool.and_eq_true, decide_eq_true_iff, String.length_ofList,
    String.toList_ofList, List.all_eq_true, and_assoc]

/-- The first subtag decides what becomes of an identifier. -/
theorem parse_eq (tag : String) : parse tag =
    if firstSubtag tag.toList = [] then .error .empty
    else if isLanguage (String.ofList (firstSubtag tag.toList)) then
      .ok ⟨String.ofList ((firstSubtag tag.toList).map Char.toLower), (subtags tag).tail⟩
    else .error (.invalidLanguage (String.ofList (firstSubtag tag.toList))) := by
  have hhead := head?_subtags tag
  rw [parse]
  cases htag : subtags tag with
  | nil =>
    rw [htag, List.head?_nil] at hhead
    split_ifs at hhead with hnil
    rw [if_pos hnil]
  | cons language rest =>
    rw [htag, List.head?_cons] at hhead
    split_ifs at hhead with hnil
    obtain rfl := Option.some.inj hhead
    rw [if_neg hnil]
    simp only [String.toList_ofList, List.tail_cons]

/-- A language has letters, so that it is a first subtag. -/
theorem firstSubtag_ne_nil {cs : List Char} (h : isLanguage (String.ofList (firstSubtag cs))) :
    firstSubtag cs ≠ [] := by
  intro hnil
  have hlength := (isLanguage_ofList_iff.1 h).1
  rw [hnil, List.length_nil] at hlength
  omega

/-- An identifier can be read if its first subtag is a language. -/
theorem parse_isOk_iff (tag : String) : (∃ locale, parse tag = .ok locale) ↔
    isLanguage (String.ofList (firstSubtag tag.toList)) := by
  rw [parse_eq]
  constructor
  · rintro ⟨locale, hlocale⟩
    split_ifs at hlocale with hnil hlanguage
    exact hlanguage
  · intro hlanguage
    rw [if_neg (firstSubtag_ne_nil hlanguage), if_pos hlanguage]
    exact ⟨_, rfl⟩

/-- An identifier without subtags is empty. -/
theorem parse_eq_empty_iff (tag : String) :
    parse tag = .error .empty ↔ firstSubtag tag.toList = [] := by
  rw [parse_eq]
  constructor
  · intro h
    by_contra hnil
    rw [if_neg hnil] at h
    split at h <;> cases h
  · intro hnil
    rw [if_pos hnil]

/-- A first subtag that is no language is told. -/
theorem parse_eq_invalidLanguage_iff (tag subtag : String) :
    parse tag = .error (.invalidLanguage subtag) ↔
      subtag.toList = firstSubtag tag.toList ∧ subtag ≠ "" ∧ ¬ isLanguage subtag := by
  rw [parse_eq]
  constructor
  · intro h
    split at h
    · cases h
    rename_i hnil
    split at h
    · cases h
    rename_i hlanguage
    obtain ⟨⟩ := h
    exact ⟨String.toList_ofList, by simpa [String.ext_iff] using hnil, hlanguage⟩
  · rintro ⟨hsubtag, hne, hlanguage⟩
    rw [← hsubtag, if_neg (by simpa using hne), String.ofList_toList, if_neg hlanguage]

/-! ## Identifiers that are cut -/

theorem takeWhile_takeWhile_of_forall {α : Type} {p q : α → Bool} {as : List α}
    (h : ∀ a ∈ as.takeWhile q, p a) : (as.takeWhile p).takeWhile q = as.takeWhile q := by
  induction as with
  | nil => rfl
  | cons a as ih =>
    by_cases hq : q a
    · rw [List.takeWhile_cons_of_pos hq] at h ⊢
      have hp : p a := h a List.mem_cons_self
      rw [List.takeWhile_cons_of_pos hp, List.takeWhile_cons_of_pos hq,
        ih fun b hb => h b (List.mem_cons_of_mem _ hb)]
    · rw [List.takeWhile_cons_of_neg hq]
      by_cases hp : p a
      · rw [List.takeWhile_cons_of_pos hp, List.takeWhile_cons_of_neg hq]
      · rw [List.takeWhile_cons_of_neg hp]
        rfl

theorem length_takeWhile_lt {α : Type} {p q : α → Bool} {as : List α}
    (h : ∀ a ∈ as.takeWhile q, p a) (hpass : ∀ a, ¬ q a → p a) (hcut : as.dropWhile p ≠ []) :
    (as.takeWhile q).length < (as.takeWhile p).length := by
  induction as with
  | nil => exact absurd rfl hcut
  | cons a as ih =>
    by_cases hq : q a
    · rw [List.takeWhile_cons_of_pos hq] at h ⊢
      have hp : p a := h a List.mem_cons_self
      rw [List.dropWhile_cons_of_pos hp] at hcut
      rw [List.takeWhile_cons_of_pos hp]
      exact Nat.succ_lt_succ (ih (fun b hb => h b (List.mem_cons_of_mem _ hb)) hcut)
    · rw [List.takeWhile_cons_of_neg hq, List.takeWhile_cons_of_pos (hpass a hq)]
      exact Nat.succ_pos _

/-- A cut behind the first subtag leaves it as it is. -/
theorem firstSubtag_takeWhile {p : Char → Bool} (hp : ∀ c, isSeparator c → p c) {cs : List Char}
    (h : ∀ c ∈ firstSubtag cs, p c) : firstSubtag (cs.takeWhile p) = firstSubtag cs := by
  induction cs with
  | nil => rfl
  | cons c cs ih =>
    unfold firstSubtag at *
    by_cases hc : isSeparator c
    · rw [List.dropWhile_cons_of_pos hc] at h ⊢
      rw [List.takeWhile_cons_of_pos (hp c hc), List.dropWhile_cons_of_pos hc]
      exact ih h
    · rw [List.dropWhile_cons_of_neg hc] at h ⊢
      -- the first subtag begins here, and the cut leaves its characters alone
      have hpc : p c := by
        apply h c
        rw [List.takeWhile_cons_of_pos (by simpa using hc)]
        exact List.mem_cons_self
      rw [List.takeWhile_cons_of_pos hpc, List.dropWhile_cons_of_neg hc,
        ← List.takeWhile_cons_of_pos hpc]
      exact takeWhile_takeWhile_of_forall h

/-- What is left of an identifier that is cut is longer than its first subtag, since a separator
stands between them. -/
theorem length_firstSubtag_lt {p : Char → Bool} (hp : ∀ c, isSeparator c → p c) {cs : List Char}
    (h : ∀ c ∈ firstSubtag cs, p c) (hcut : cs.dropWhile p ≠ []) :
    (firstSubtag cs).length < (cs.takeWhile p).length := by
  induction cs with
  | nil => exact absurd rfl hcut
  | cons c cs ih =>
    unfold firstSubtag at *
    by_cases hc : isSeparator c
    · rw [List.dropWhile_cons_of_pos hc] at h ⊢
      rw [List.dropWhile_cons_of_pos (hp c hc)] at hcut
      rw [List.takeWhile_cons_of_pos (hp c hc)]
      exact (ih h hcut).trans (Nat.lt_succ_self _)
    · rw [List.dropWhile_cons_of_neg hc] at h ⊢
      exact length_takeWhile_lt h (fun a ha => hp a (by simpa using ha)) hcut

/-- An identifier that can be read can be read when it is cut. -/
theorem parse_takeWhile {p : Char → Bool} (hseparator : ∀ c, isSeparator c → p c)
    (halpha : ∀ c : Char, c.isAlpha → p c) {tag : String}
    (h : ∃ locale, parse tag = .ok locale) :
    ∃ locale, parse (String.ofList (tag.toList.takeWhile p)) = .ok locale := by
  rw [parse_isOk_iff] at h ⊢
  have hpass : ∀ c ∈ firstSubtag tag.toList, p c := fun c hc =>
    halpha c ((isLanguage_ofList_iff.1 h).2.2 c hc)
  rwa [String.toList_ofList, firstSubtag_takeWhile hseparator hpass]

/-- What is cut off an identifier that can be read comes behind three characters. -/
theorem three_le_length_takeWhile {p : Char → Bool} (hseparator : ∀ c, isSeparator c → p c)
    (halpha : ∀ c : Char, c.isAlpha → p c) {tag : String} (h : ∃ locale, parse tag = .ok locale)
    (hcut : tag.toList.dropWhile p ≠ []) : 3 ≤ (tag.toList.takeWhile p).length := by
  rw [parse_isOk_iff] at h
  obtain ⟨hlength, -, hletters⟩ := isLanguage_ofList_iff.1 h
  have hpass : ∀ c ∈ firstSubtag tag.toList, p c := fun c hc => halpha c (hletters c hc)
  have hlt := length_firstSubtag_lt hseparator hpass hcut
  omega

end Locale

end Paradigm
