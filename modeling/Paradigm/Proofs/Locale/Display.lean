import Mathlib
import Paradigm.Proofs.Locale

/-!
# The normal form of locale identifiers

A locale is displayed as its language in small letters and its further subtags, one underscore
apart.  Neither the separators of the identifier that it was read from nor the case of the language
are kept, but nothing else is lost: what is displayed is read as the same locale.

## Main definitions

* `Locale.IsSubtag`: what may stand between two separators
* `Locale.Normal`: the locales that are displayed without loss

## Main results

* `Locale.subtags_intercalate`: subtags that are joined are found again
* `Locale.normal_iff`: the locales that are read from identifiers
* `Locale.Normal.parse_display`: what is displayed is read as the same locale
* `Locale.parse_normalizes`: the identifiers that can be read, and their normal form
-/

namespace Paradigm

namespace Locale

variable {l : Locale} {tag : String}

/-! ## Subtags -/

/-- A piece of a tag that stands between two separators. -/
structure IsSubtag (s : String) : Prop where
  ne_empty : s ≠ ""
  not_separator : ∀ c ∈ s.toList, isSeparator c = false

/-- No piece has an element at which the list was split. -/
theorem forall_mem_splitOnP {α : Type} (p : α → Bool) (as : List α) :
    ∀ piece ∈ as.splitOnP p, ∀ a ∈ piece, p a = false := by
  induction as with
  | nil => simp
  | cons b as ih =>
    -- the element begins a piece, or belongs to the first piece of the rest
    obtain ⟨rest, hrest⟩ := exists_splitOnP p as
    rw [hrest, List.forall_mem_cons] at ih
    rw [List.splitOnP_cons_eq_if_modifyHead, hrest]
    split_ifs with hb
    · simpa using ih
    · rw [List.modifyHead_cons, List.forall_mem_cons]
      exact ⟨List.forall_mem_cons.2 ⟨by simpa using hb, ih.1⟩, ih.2⟩

theorem isSubtag_of_mem_subtags {s : String} (h : s ∈ subtags tag) : IsSubtag s := by
  obtain ⟨piece, hpiece, rfl⟩ := List.mem_map.1 h
  obtain ⟨hpiece, hne⟩ := List.mem_filter.1 hpiece
  constructor
  · simpa [String.ext_iff] using hne
  · rw [String.toList_ofList]
    exact forall_mem_splitOnP _ _ _ hpiece

/-- Pieces that are joined by a separator are found again. -/
theorem filter_splitOnP_intercalate {α : Type} {p : α → Bool} {sep : α} (hsep : p sep)
    {pieces : List (List α)} (h : ∀ piece ∈ pieces, piece ≠ [] ∧ ∀ a ∈ piece, p a = false) :
    (([sep].intercalate pieces).splitOnP p).filter (!·.isEmpty) = pieces := by
  induction pieces with
  | nil => rfl
  | cons piece pieces ih =>
    obtain ⟨⟨hne, hpiece⟩, hpieces⟩ := List.forall_mem_cons.1 h
    have hself : (piece.splitOnP p).filter (!·.isEmpty) = [piece] := by
      rw [List.splitOnP_eq_singleton hpiece]
      simp [hne]
    rcases eq_or_ne pieces [] with rfl | hrest
    · rw [List.intercalate_singleton, hself]
    · rw [List.intercalate_cons_of_ne_nil hrest, List.append_assoc, List.singleton_append,
        List.splitOnP_append_cons _ _ hsep, List.filter_append, hself, ih hpieces,
        List.singleton_append]

/-- Subtags that are joined by underscores are found again. -/
theorem subtags_intercalate {ss : List String} (h : ∀ s ∈ ss, IsSubtag s) :
    subtags ("_".intercalate ss) = ss := by
  have hpieces : ∀ piece ∈ ss.map String.toList,
      piece ≠ [] ∧ ∀ c ∈ piece, isSeparator c = false := by
    rw [List.forall_mem_map]
    intro s hs
    exact ⟨by simpa using (h s hs).ne_empty, (h s hs).not_separator⟩
  have hjoined : ("_".intercalate ss).toList = ['_'].intercalate (ss.map String.toList) :=
    String.toList_intercalate
  rw [subtags, hjoined, filter_splitOnP_intercalate rfl hpieces, List.map_map]
  simp [Function.comp_def]

/-! ## Locales in normal form -/

/-- The language is a language in small letters, and the others are subtags. -/
structure Normal (l : Locale) : Prop where
  isLanguage : Locale.isLanguage l.language
  lower : l.language.toList.map Char.toLower = l.language.toList
  isSubtag : ∀ s ∈ l.rest, IsSubtag s

/-- A language does not have separators, since these are no letters. -/
theorem isSubtag_of_isLanguage {s : String} (h : isLanguage s) : IsSubtag s := by
  rw [← String.ofList_toList (s := s), isLanguage_ofList_iff] at h
  obtain ⟨hlength, -, hletters⟩ := h
  constructor
  · rintro rfl
    simp at hlength
  · intro c hc
    have halpha := hletters c hc
    by_contra hseparator
    rw [Bool.not_eq_false, isSeparator, Bool.or_eq_true, beq_iff_eq, beq_iff_eq] at hseparator
    rcases hseparator with rfl | rfl <;> exact absurd halpha (by decide)

/-- Small letters make up a language if the letters do. -/
theorem isLanguage_map_toLower {cs : List Char} :
    isLanguage (String.ofList (cs.map Char.toLower)) ↔ isLanguage (String.ofList cs) := by
  simp [isLanguage_ofList_iff]

/-- What is read from an identifier is in normal form. -/
theorem normal_of_parse (h : parse tag = .ok l) : l.Normal := by
  rw [parse_eq] at h
  split_ifs at h with hnil hlanguage
  obtain rfl := Except.ok.inj h
  refine ⟨isLanguage_map_toLower.2 hlanguage, ?_, ?_⟩
  · simp [Function.comp_def]
  · intro s hs
    exact isSubtag_of_mem_subtags (List.mem_of_mem_tail hs)

namespace Normal

/-- The language of a locale by itself. -/
theorem generic (h : l.Normal) : l.generic.Normal :=
  ⟨h.isLanguage, h.lower, fun _ hs => absurd hs List.not_mem_nil⟩

theorem subtags_display (h : l.Normal) : subtags l.display = l.language :: l.rest :=
  subtags_intercalate (List.forall_mem_cons.2 ⟨isSubtag_of_isLanguage h.isLanguage, h.isSubtag⟩)

/-- What is displayed is read as the same locale. -/
theorem parse_display (h : l.Normal) : parse l.display = .ok l := by
  rw [parse, h.subtags_display]
  simp only [h.isLanguage, if_true, h.lower, String.ofList_toList]

/-- A locale is determined by what is displayed. -/
theorem display_inj {l' : Locale} (h : l.Normal) (h' : l'.Normal) :
    l.display = l'.display ↔ l = l' := by
  refine ⟨fun heq => ?_, congrArg display⟩
  have hparse := h.parse_display
  rw [heq, h'.parse_display] at hparse
  exact (Except.ok.inj hparse).symm

end Normal

/-- The locales in normal form are those that are read from identifiers. -/
theorem normal_iff : l.Normal ↔ ∃ tag, parse tag = .ok l :=
  ⟨fun h => ⟨l.display, h.parse_display⟩, fun ⟨_, h⟩ => normal_of_parse h⟩

/-- **Locale identifiers have a normal form.**  An identifier can be read exactly if its first
subtag has two to four ASCII letters; one without subtags is refused as empty, and any other with
its first subtag.  A locale that was read is read again from what it displays, and so is its
language by itself; identifiers whose locales display the same stand for the same locale. -/
theorem parse_normalizes (tag : String) :
    ((∃ l, parse tag = .ok l) ↔ 2 ≤ (firstSubtag tag.toList).length ∧
      (firstSubtag tag.toList).length ≤ 4 ∧ ∀ c ∈ firstSubtag tag.toList, c.isAlpha) ∧
    (parse tag = .error .empty ↔ firstSubtag tag.toList = []) ∧
    (∀ subtag, parse tag = .error (.invalidLanguage subtag) ↔
      subtag.toList = firstSubtag tag.toList ∧ subtag ≠ "" ∧ ¬ ∃ l, parse tag = .ok l) ∧
    ∀ l, parse tag = .ok l →
      parse l.display = .ok l ∧ parse l.generic.display = .ok l.generic ∧
        ∀ tag' l', parse tag' = .ok l' → l'.display = l.display → l' = l := by
  have hread := (parse_isOk_iff tag).trans isLanguage_ofList_iff
  refine ⟨hread, parse_eq_empty_iff tag, fun subtag => ?_, fun l hl => ?_⟩
  · rw [parse_eq_invalidLanguage_iff, parse_isOk_iff]
    refine and_congr_right fun hsubtag => ?_
    rw [← hsubtag, String.ofList_toList]
  · have hnormal := normal_of_parse hl
    refine ⟨hnormal.parse_display, hnormal.generic.parse_display, ?_⟩
    intro tag' l' hl' hdisplay
    exact ((normal_of_parse hl').display_inj hnormal).1 hdisplay

theorem parse_normalizes_traditional :
    parse "_ZH--Hant-TW" = .ok ⟨"zh", ["Hant", "TW"]⟩ ∧
      parse "zh_Hant_TW" = .ok ⟨"zh", ["Hant", "TW"]⟩ ∧ parse "zh" = .ok ⟨"zh", []⟩ ∧
      ∃ l, parse "Zh-Hant_TW" = .ok l ∧ l.display = "zh_Hant_TW" ∧ l = ⟨"zh", ["Hant", "TW"]⟩ := by
  have hread : parse "_ZH--Hant-TW" = .ok ⟨"zh", ["Hant", "TW"]⟩ := by cbv
  have hother : parse "Zh-Hant_TW" = .ok ⟨"zh", ["Hant", "TW"]⟩ := by cbv
  obtain ⟨hdisplay, hgeneric, hsame⟩ := (parse_normalizes "_ZH--Hant-TW").2.2.2 _ hread
  exact ⟨hread, hdisplay, hgeneric, _, hother, rfl, hsame _ _ hother rfl⟩

end Locale

end Paradigm
