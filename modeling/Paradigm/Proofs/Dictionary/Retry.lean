import Mathlib
import Paradigm.Dictionary
import Paradigm.Proofs.Text.Case

/-!
# Words that are looked up again

A word that is missing is looked up again in lowercase, which is spared if the word is in lowercase.
Such a word is its own lowercase form under every locale, so that the second search would look for
the word that the first one missed.  The answers are those of a dictionary that always looks twice.

## Main definitions

* `Dictionary.afterMiss`: a search that is followed by another one
* `Dictionary.patternIdsRetrying?`, `Dictionary.propertyValuesRetrying?`: answers where words in
  lowercase are looked up again as well
* `Dictionary.propertyValuesUnlessStored?`: values where only the stored grammemes of a word decide
  whether it is looked up again

## Main results

* `Dictionary.patternIds?_eq_retrying`, `Dictionary.propertyValues?_eq_retrying`: the same answers
* `Dictionary.propertyValues?_eq_or`: the answers by the stored grammemes
* `Dictionary.casePredicates_and_retry`: the tests for case, and the searches that they spare
-/

namespace Paradigm

open Text (Case.lowercase Case.uppercase Case.isAllLower Case.isAllUpper)

namespace Dictionary

/-- A search, and what is done if it finds nothing. -/
def afterMiss {α : Type} (search next : Except StorageError (Option α)) :
    Except StorageError (Option α) := do
  match ← search with
  | some found => return some found
  | none => next

/-- The identifiers of the patterns of a word, which are always looked up again in lowercase. -/
def patternIdsRetrying? (d : Dictionary) (word : String) :
    Except StorageError (Option (List Nat)) :=
  match d.store.inflectionKey? with
  | none => .ok none
  | some key =>
    afterMiss (d.store.propertyIds? word key)
      (d.store.propertyIds? (Case.lowercase word d.locale) key)

/-- The values of a property of a word, which are looked up again in lowercase unless the word is
stored with grammemes, whatever its case. -/
def propertyValuesUnlessStored? (d : Dictionary) (word property : String) :
    Except StorageError (Option (List String)) :=
  afterMiss (d.store.wordProperty? word property) do
    match ← d.store.wordGrammemes? word with
    | some _ => return none
    | none => d.store.wordProperty? (Case.lowercase word d.locale) property

/-- The values of a property of a word, which are also looked up again in lowercase if the word is
in lowercase already. -/
def propertyValuesRetrying? (d : Dictionary) (word property : String) :
    Except StorageError (Option (List String)) :=
  if Case.isAllLower word then
    afterMiss (d.store.wordProperty? word property)
      (d.store.wordProperty? (Case.lowercase word d.locale) property)
  else d.propertyValuesUnlessStored? word property

/-! ## Searches that are spared -/

section AfterMiss

variable {α : Type} {search next : Except StorageError (Option α)}

/-- A computation that returns what a search finds goes on after a miss. -/
theorem bind_eq_afterMiss {f : Option α → Except StorageError (Option α)}
    (h : ∀ found, f (some found) = .ok (some found)) :
    search >>= f = afterMiss search (f none) := by
  cases search with
  | error cause => rfl
  | ok found? =>
    cases found? with
    | some found => exact h found
    | none => rfl

theorem afterMiss_of_eq_ok_none (h : search = .ok none) : afterMiss search next = next := by
  rw [h]
  rfl

theorem afterMiss_of_ne (h : search ≠ .ok none) : afterMiss search next = search := by
  cases search with
  | error cause => rfl
  | ok found? =>
    cases found? with
    | some found => rfl
    | none => exact absurd rfl h

/-- What is done after a miss need not be done if it would miss as well. -/
theorem afterMiss_none_eq_self : afterMiss search (.ok none) = afterMiss search search := by
  by_cases hmiss : search = .ok none
  · rw [hmiss]
  · rw [afterMiss_of_ne hmiss, afterMiss_of_ne hmiss]

end AfterMiss

variable (d : Dictionary) {word : String}

/-- A word in lowercase is looked up again as itself. -/
theorem lowercase_eq_self (h : Case.isAllLower word) : Case.lowercase word d.locale = word :=
  ((Text.Case.isAllLower_iff word d.locale).1 h).2

theorem patternIds?_eq_retrying (word : String) :
    d.patternIds? word = d.patternIdsRetrying? word := by
  unfold patternIds? patternIdsRetrying?
  cases d.store.inflectionKey? with
  | none => rfl
  | some key =>
    dsimp only
    rw [bind_eq_afterMiss]
    · dsimp only
      split_ifs with hlower
      -- the second search would be the first one again
      · rw [d.lowercase_eq_self hlower]
        exact afterMiss_none_eq_self
      · rfl
    · exact fun _ => rfl

/-- The values of a property of a word, with what is done after a miss. -/
theorem propertyValues?_eq_afterMiss (word property : String) :
    d.propertyValues? word property =
      if Case.isAllLower word then afterMiss (d.store.wordProperty? word property) (.ok none)
      else d.propertyValuesUnlessStored? word property := by
  rw [propertyValues?, bind_eq_afterMiss]
  · dsimp only
    split_ifs
    · rfl
    · rfl
  · exact fun _ => rfl

theorem propertyValues?_eq_retrying (word property : String) :
    d.propertyValues? word property = d.propertyValuesRetrying? word property := by
  rw [propertyValues?_eq_afterMiss, propertyValuesRetrying?]
  split_ifs with hlower
  · rw [d.lowercase_eq_self hlower, afterMiss_none_eq_self]
  · rfl

/-- The grammemes of a word alone decide about its second search, unless they cannot be read: a word
in lowercase is then refused where no values would be found. -/
theorem propertyValues?_eq_or (word property : String) :
    d.propertyValues? word property = d.propertyValuesUnlessStored? word property ∨
      d.propertyValues? word property = .ok none ∧
        ∃ cause, d.store.wordGrammemes? word = .error cause ∧
          d.propertyValuesUnlessStored? word property = .error cause := by
  rw [propertyValues?_eq_afterMiss]
  split_ifs with hlower
  · by_cases hmiss : d.store.wordProperty? word property = .ok none
    · rw [propertyValuesUnlessStored?, afterMiss_of_eq_ok_none hmiss,
        afterMiss_of_eq_ok_none hmiss, d.lowercase_eq_self hlower, hmiss]
      cases hstored : d.store.wordGrammemes? word with
      | error cause => exact .inr ⟨rfl, cause, rfl, rfl⟩
      | ok mask? => cases mask? <;> exact .inl rfl
    · rw [propertyValuesUnlessStored?, afterMiss_of_ne hmiss, afterMiss_of_ne hmiss]
      exact .inl rfl
  · exact .inl rfl

/-- The words in lowercase are the words that lowercase keeps under every locale, and likewise for
uppercase; the searches that are spared for words in lowercase would change no answer. -/
theorem casePredicates_and_retry :
    (∀ (word : String) (locale : Locale),
      (Case.isAllLower word ↔ word ≠ "" ∧ Case.lowercase word locale = word) ∧
      (Case.isAllUpper word ↔ word ≠ "" ∧ Case.uppercase word locale = word)) ∧
    ∀ (d : Dictionary) (word : String),
      d.patternIds? word = d.patternIdsRetrying? word ∧
      ∀ property,
        d.propertyValues? word property = d.propertyValuesRetrying? word property ∧
        (d.propertyValues? word property = d.propertyValuesUnlessStored? word property ∨
          d.propertyValues? word property = .ok none ∧
            ∃ cause, d.store.wordGrammemes? word = .error cause ∧
              d.propertyValuesUnlessStored? word property = .error cause) := by
  refine ⟨fun word locale => ⟨?_, ?_⟩, fun d word => ⟨?_, fun property => ⟨?_, ?_⟩⟩⟩
  · exact Text.Case.isAllLower_iff word locale
  · exact Text.Case.isAllUpper_iff word locale
  · exact d.patternIds?_eq_retrying word
  · exact d.propertyValues?_eq_retrying word property
  · exact d.propertyValues?_eq_or word property

end Dictionary

end Paradigm
