import Paradigm.Storage.Error

/-!
# Tables of strings

A table numbers the strings in it without gaps, and answers in both directions.  Small vocabularies
are kept in a sorted array and large ones in a trie; both keep to this contract.

## Main definitions

* `StringTable`: the queries of a table
* `StringTable.require`: the identifier of a string that must be in the table
-/

namespace Paradigm

/-- The queries that every table of strings answers. -/
class StringTable (τ : Type) where
  /-- The number of strings. -/
  size : τ → Nat
  /-- The identifier of a string. -/
  identifier? : τ → String → Option Nat
  /-- The string with an identifier. -/
  string : τ → Nat → Except StorageError String
  /-- The number of bytes of the stored form, without zeros at its end where these are not part of
  the table. -/
  encodedSize : τ → Nat

namespace StringTable

variable {τ : Type} [StringTable τ]

/-- The identifier of a string that must be in the table. -/
def require (t : τ) (s : String) : Except StorageError Nat :=
  match identifier? t s with
  | some id => .ok id
  | none => .error (.notFound s)

end StringTable

end Paradigm
