import Paradigm.Storage.KeyEncoding
import Paradigm.Trie.ByteTrie

/-!
# Tries of strings

A trie whose keys are strings in one encoding.

## Main definitions

* `StringTrie.ofKeys`, `StringTrie.ofKeysIn`: the trie of a list of strings, in the smallest or a
  given encoding
* `StringTrie.lookup`, `StringTrie.key`, `StringTrie.withPrefix`: queries by strings
-/

namespace Paradigm

open Text (Encoding)

/-- A set of strings in one encoding. -/
structure StringTrie where
  encoding : Encoding
  trie : ByteTrie
  deriving DecidableEq

namespace StringTrie

/-- The trie of strings in a given encoding. -/
def ofKeysIn (encoding : Encoding) (keys : List String) : StringTrie :=
  ⟨encoding, ByteTrie.ofKeys (keys.map encoding.encode)⟩

/-- The trie of strings in the encoding that takes the fewest bytes. -/
def ofKeys (keys : List String) : StringTrie := ofKeysIn (Encoding.selectSmallest keys) keys

/-- The number of strings. -/
def size (t : StringTrie) : Nat := t.trie.size

/-- The identifier of a string. -/
def lookup (t : StringTrie) (key : String) : Option Nat := t.trie.lookup (t.encoding.encode key)

/-- The string with an identifier. -/
def key (t : StringTrie) (id : Nat) : Except StorageError String := do
  t.encoding.decode (← t.trie.key id)

/-- The strings that begin with `start` and their identifiers, in the order of their bytes. -/
def withPrefix (t : StringTrie) (start : String) : List (Except StorageError (String × Nat)) :=
  (t.trie.withPrefix (t.encoding.encode start)).map fun (key, id) =>
    (t.encoding.decode key).map (·, id)

end StringTrie

end Paradigm
