import Mathlib
import Paradigm.Proofs.Outcome
import Paradigm.Table.Strings

/-!
# Numbered strings

A table of strings stands for a list of distinct strings, whose places in the list are their
identifiers.

## Main definitions

* `Numbering`: queries that answer by the places of strings in a list
* `StringTable.Numbers`: a table answers by a list of strings
* `StringTable.SameAnswers`: two tables answer alike

## Main results

* `Numbering.mem_iff`: the strings of a table
* `StringTable.require_eq_ok`, `StringTable.require_eq_error_iff`: a string that must be in a table
-/

namespace Paradigm

/-- The queries of a table answer by the places of distinct strings in a list. -/
structure Numbering (size : Nat) (find? : String → Option Nat)
    (name : Nat → Except StorageError String) (strings : List String) : Prop where
  nodup : strings.Nodup
  size_eq : size = strings.length
  find?_eq_some_iff : ∀ s id, find? s = some id ↔ strings[id]? = some s
  name_eq_ok : ∀ s id, strings[id]? = some s → name id = .ok s

namespace Numbering

variable {size : Nat} {find? : String → Option Nat} {name : Nat → Except StorageError String}
  {strings : List String} {s t : String} {id : Nat}

theorem mem_iff (h : Numbering size find? name strings) :
    s ∈ strings ↔ ∃ id, find? s = some id := by
  simp only [List.mem_iff_getElem?, h.find?_eq_some_iff]

theorem find?_eq_none (h : Numbering size find? name strings) (hs : s ∉ strings) :
    find? s = none := by
  apply Option.eq_none_iff_forall_ne_some.2
  intro id hid
  exact hs (h.mem_iff.2 ⟨id, hid⟩)

theorem lt_size (h : Numbering size find? name strings) (hs : find? s = some id) : id < size := by
  rw [h.size_eq]
  exact (List.getElem?_eq_some_iff.1 ((h.find?_eq_some_iff s id).1 hs)).1

/-- An identifier leads back to its string. -/
theorem name_of_find? (h : Numbering size find? name strings) (hs : find? s = some id) :
    name id = .ok s :=
  h.name_eq_ok s id ((h.find?_eq_some_iff s id).1 hs)

/-- Different strings have different identifiers. -/
theorem eq_of_find? (h : Numbering size find? name strings) (hs : find? s = some id)
    (ht : find? t = some id) : s = t := by
  rw [h.find?_eq_some_iff] at hs ht
  exact Option.some.inj (hs.symm.trans ht)

end Numbering

namespace StringTable

variable {τ : Type} [StringTable τ]

/-- A table answers by the places of strings in a list. -/
def Numbers (t : τ) (strings : List String) : Prop :=
  Numbering (size t) (identifier? t) (string t) strings

/-- Two tables answer alike, by strings and by identifiers. -/
structure SameAnswers (t u : τ) : Prop where
  size_eq : size u = size t
  identifier?_eq : ∀ s, identifier? u s = identifier? t s
  string_eq : ∀ id, string u id = string t id

theorem require_eq_ok {t : τ} {s : String} {id : Nat} :
    require t s = .ok id ↔ identifier? t s = some id := by
  rw [require]
  cases identifier? t s <;> simp

theorem require_eq_error_iff {t : τ} {s : String} :
    require t s = .error (.notFound s) ↔ identifier? t s = none := by
  rw [require]
  cases identifier? t s <;> simp

end StringTable

end Paradigm
