import Mathlib
import Paradigm.Text.Case

/-!
# Words that a case mapping leaves as they are

A case mapping replaces every character by one or more characters.  The new word is therefore the
old one only if every character is replaced by itself: no character is dropped that would make up
for another one that grows.  The characters whose mapping depends on their neighbours or on the
locale are replaced by other characters under all rules, so that neither the rules for the sigma
nor the Turkic ones change which words stay as they are.

## Main definitions

* `KeepsLike`: two mappings keep the same characters
* `Caseless`: a word without letters that have case

## Main results

* `lowerOf_ne_nil`, `upperOf_ne_nil`: no character is dropped
* `lowerChars_eq_self_iff`: the rules for the sigma do not matter
* `turkicLowerOf_keepsLike`, `turkicUpperOf_keepsLike`: the Turkic rules do not matter
* `lowercase_eq_self_iff`, `uppercase_eq_self_iff`: the words that are kept, under all locales
* `isAllLower_iff`, `isAllUpper_iff`: the tests for these words
* `Caseless.isAllUpper`: words without case count as words in capitals
-/

namespace Paradigm.Text.Case

/-! ## Lists of pieces -/

section Pieces

variable {α : Type}

/-- A list that starts with a piece of at least one element and goes on long enough is the list at
hand only if the piece is its first element. -/
theorem append_eq_cons_iff_of_length_le {piece rest xs : List α} {x : α} (hpiece : piece ≠ [])
    (hrest : xs.length ≤ rest.length) :
    piece ++ rest = x :: xs ↔ piece = [x] ∧ rest = xs := by
  obtain ⟨y, ys, rfl⟩ := List.exists_cons_of_ne_nil hpiece
  constructor
  · intro h
    rw [List.cons_append, List.cons_eq_cons] at h
    obtain ⟨rfl, htail⟩ := h
    -- there is no room for a second element in the piece
    have hlen := congrArg List.length htail
    rw [List.length_append] at hlen
    obtain rfl : ys = [] := List.eq_nil_of_length_eq_zero (by omega)
    exact ⟨rfl, htail⟩
  · rintro ⟨hxs, rfl⟩
    rw [hxs]
    rfl

variable {f : α → List α}

theorem length_le_flatMap (hf : ∀ x, f x ≠ []) (xs : List α) :
    xs.length ≤ (xs.flatMap f).length := by
  induction xs with
  | nil => exact Nat.le_refl 0
  | cons x xs ih =>
    have hpos := List.length_pos_of_ne_nil (hf x)
    rw [List.flatMap_cons, List.length_append, List.length_cons]
    omega

/-- A list whose elements are replaced by pieces stays the same only if every element does. -/
theorem flatMap_eq_self_iff (hf : ∀ x, f x ≠ []) (xs : List α) :
    xs.flatMap f = xs ↔ ∀ x ∈ xs, f x = [x] := by
  induction xs with
  | nil => exact iff_of_true rfl fun x hx => absurd hx List.not_mem_nil
  | cons x xs ih =>
    rw [List.flatMap_cons, append_eq_cons_iff_of_length_le (hf x) (length_le_flatMap hf xs), ih,
      List.forall_mem_cons]

end Pieces

/-! ## Characters -/

theorem mapped_ne_nil {expansions : List (Nat × List Nat)} (h : ∀ e ∈ expansions, e.2 ≠ [])
    (shifts : List Shift) (c : Char) : mapped expansions shifts c ≠ [] := by
  unfold mapped
  split
  next codes hcodes =>
    obtain ⟨before, after, rfl, -⟩ := List.lookup_eq_some_iff.1 hcodes
    have hne : codes ≠ [] := h _ (List.mem_append_right _ List.mem_cons_self)
    exact mt List.map_eq_nil_iff.1 hne
  next => exact List.cons_ne_nil _ _

theorem lowerOf_ne_nil (c : Char) : lowerOf c ≠ [] :=
  mapped_ne_nil (by decide) _ c

theorem upperOf_ne_nil (c : Char) : upperOf c ≠ [] :=
  mapped_ne_nil (by decide) _ c

/-- A mapping drops no character, and keeps those that another mapping keeps. -/
structure KeepsLike (g f : Char → List Char) : Prop where
  ne_nil : ∀ c, g c ≠ []
  eq_iff : ∀ c, g c = [c] ↔ f c = [c]

theorem KeepsLike.flatMap_eq_self_iff {f g : Char → List Char} (h : KeepsLike g f)
    (cs : List Char) : cs.flatMap g = cs ↔ ∀ c ∈ cs, f c = [c] := by
  rw [Case.flatMap_eq_self_iff h.ne_nil]
  simp only [h.eq_iff]

/-- Two exceptions that are kept neither as exceptions nor by the mapping itself change nothing. -/
theorem keepsLike_of_exceptions {f : Char → List Char} (hf : ∀ c, f c ≠ []) {a b x y : Char}
    (hx : x ≠ a) (hy : y ≠ b) (ha : f a ≠ [a]) (hb : f b ≠ [b]) :
    KeepsLike (fun c => if c = a then [x] else if c = b then [y] else f c) f where
  ne_nil c := by
    split_ifs
    · exact List.cons_ne_nil _ _
    · exact List.cons_ne_nil _ _
    · exact hf c
  eq_iff c := by
    split_ifs with hfirst hsecond
    · subst hfirst
      exact iff_of_false (fun h => hx (List.singleton_inj.1 h)) ha
    · subst hsecond
      exact iff_of_false (fun h => hy (List.singleton_inj.1 h)) hb
    · exact Iff.rfl

/-- The Turkic rules for lowercase concern two characters that no rule keeps. -/
theorem turkicLowerOf_keepsLike : KeepsLike turkicLowerOf lowerOf :=
  keepsLike_of_exceptions lowerOf_ne_nil (by decide) (by decide) (by decide +kernel)
    (by decide +kernel)

/-- The Turkic rules for uppercase concern two characters that no rule keeps. -/
theorem turkicUpperOf_keepsLike : KeepsLike turkicUpperOf upperOf :=
  keepsLike_of_exceptions upperOf_ne_nil (by decide) (by decide) (by decide +kernel)
    (by decide +kernel)

/-! ## Sigmas -/

/-- What a character is replaced by between its neighbours is not empty, and it is the character
only if the character is its own lowercase form. -/
theorem lowerChars_cons (before : List Char) (c : Char) (after : List Char) :
    ∃ piece, lowerChars before (c :: after) = piece ++ lowerChars (c :: before) after ∧
      piece ≠ [] ∧ (piece = [c] ↔ lowerOf c = [c]) := by
  refine ⟨_, rfl, ?_⟩
  split_ifs with hsigma hfinal
  -- both small sigmas differ from the capital
  · subst hsigma
    exact ⟨List.cons_ne_nil _ _, iff_of_false (by decide) (by decide +kernel)⟩
  · subst hsigma
    exact ⟨List.cons_ne_nil _ _, iff_of_false (by decide) (by decide +kernel)⟩
  · exact ⟨lowerOf_ne_nil c, Iff.rfl⟩

theorem length_le_lowerChars (before cs : List Char) :
    cs.length ≤ (lowerChars before cs).length := by
  induction cs generalizing before with
  | nil => exact Nat.le_refl 0
  | cons c after ih =>
    obtain ⟨piece, hpiece, hne, -⟩ := lowerChars_cons before c after
    have hpos := List.length_pos_of_ne_nil hne
    have hrest := ih (c :: before)
    rw [hpiece, List.length_append, List.length_cons]
    omega

/-- Whatever stands before it, a text is kept only if each of its characters is. -/
theorem lowerChars_eq_self_iff (before cs : List Char) :
    lowerChars before cs = cs ↔ ∀ c ∈ cs, lowerOf c = [c] := by
  -- the characters before grow with every character that is passed
  induction cs generalizing before with
  | nil => exact iff_of_true rfl fun c hc => absurd hc List.not_mem_nil
  | cons c after ih =>
    obtain ⟨piece, hpiece, hne, hself⟩ := lowerChars_cons before c after
    rw [hpiece, append_eq_cons_iff_of_length_le hne (length_le_lowerChars _ after), hself, ih,
      List.forall_mem_cons]

/-! ## Words -/

/-- The words that lowercase keeps under the conventions of a locale. -/
theorem lowercase_eq_self_iff (word : String) (locale : Locale) :
    lowercase word locale = word ↔ ∀ c ∈ word.toList, lowerOf c = [c] := by
  rw [lowercase, String.ofList_eq]
  split_ifs with hturkic
  · exact turkicLowerOf_keepsLike.flatMap_eq_self_iff word.toList
  · exact lowerChars_eq_self_iff [] word.toList

/-- The words that uppercase keeps under the conventions of a locale. -/
theorem uppercase_eq_self_iff (word : String) (locale : Locale) :
    uppercase word locale = word ↔ ∀ c ∈ word.toList, upperOf c = [c] := by
  rw [uppercase, String.ofList_eq]
  split_ifs with hturkic
  · exact turkicUpperOf_keepsLike.flatMap_eq_self_iff word.toList
  · exact flatMap_eq_self_iff upperOf_ne_nil word.toList

/-- The words in lowercase are those that lowercase keeps, the empty one apart. -/
theorem isAllLower_iff (word : String) (locale : Locale) :
    isAllLower word ↔ word ≠ "" ∧ lowercase word locale = word := by
  rw [isAllLower, Bool.and_eq_true, Bool.not_eq_true', String.isEmpty_eq_false_iff,
    lowercase_eq_self_iff, List.all_eq_true]
  simp only [beq_iff_eq]

/-- The words in uppercase are those that uppercase keeps, the empty one apart. -/
theorem isAllUpper_iff (word : String) (locale : Locale) :
    isAllUpper word ↔ word ≠ "" ∧ uppercase word locale = word := by
  rw [isAllUpper, Bool.and_eq_true, Bool.not_eq_true', String.isEmpty_eq_false_iff,
    uppercase_eq_self_iff, List.all_eq_true]
  simp only [beq_iff_eq]

/-- Two words are put into uppercase one by one, since no character looks at its neighbours. -/
theorem uppercase_append (s t : String) (locale : Locale) :
    uppercase (s ++ t) locale = uppercase s locale ++ uppercase t locale := by
  rw [uppercase, String.toList_append, List.flatMap_append, String.ofList_append]
  rfl

/-! ## Words without case -/

/-- Neither lowercase nor uppercase changes a character of the word. -/
def Caseless (word : String) : Prop :=
  ∀ c ∈ word.toList, lowerOf c = [c] ∧ upperOf c = [c]

instance (word : String) : Decidable (Caseless word) :=
  decidable_of_iff (word.toList.all fun c => lowerOf c == [c] && upperOf c == [c]) <| by
    simp only [Caseless, List.all_eq_true, Bool.and_eq_true, beq_iff_eq]

theorem caseless_append_iff {s t : String} : Caseless (s ++ t) ↔ Caseless s ∧ Caseless t := by
  unfold Caseless
  rw [String.toList_append, List.forall_mem_append]

namespace Caseless

variable {word : String}

theorem lowercase_eq (h : Caseless word) (locale : Locale) : lowercase word locale = word :=
  (lowercase_eq_self_iff word locale).2 fun c hc => (h c hc).1

theorem uppercase_eq (h : Caseless word) (locale : Locale) : uppercase word locale = word :=
  (uppercase_eq_self_iff word locale).2 fun c hc => (h c hc).2

/-- A word without case counts as a word in capitals, unless it is empty. -/
theorem isAllUpper (h : Caseless word) (hne : word ≠ "") : isAllUpper word :=
  (isAllUpper_iff word ⟨"en", []⟩).2 ⟨hne, h.uppercase_eq _⟩

end Caseless

end Paradigm.Text.Case
