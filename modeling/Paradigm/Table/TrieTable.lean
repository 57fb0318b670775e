import Paradigm.Table.Strings
import Paradigm.Trie.StringTrie

/-!
# Tables of strings in a trie

Large vocabularies, such as suffixes and property values, are kept in a trie, whose keys get their
identifiers from their places in it.

## Main definitions

* `TrieTable.ofList`: the table of a list of strings
* `TrieTable.strings`: all strings with their identifiers
* `TrieTable.read`, `TrieTable.write`: the stored form
-/

namespace Paradigm

open Text (Encoding)

/-- A table of strings in a trie, with the number of bytes of its stored form. -/
structure TrieTable where
  trie : StringTrie
  encodedSize : Nat
  deriving DecidableEq

namespace TrieTable

/-- The table of the strings of a list; their order and repetitions do not matter. -/
def ofList (strings : List String) : Except StorageError TrieTable := do
  let trie := StringTrie.ofKeys strings
  let stored ← trie.trie.write .empty
  return ⟨trie, 8 + stored.position⟩

/-- The encoding of the strings. -/
def encoding (t : TrieTable) : Encoding := t.trie.encoding

/-- The number of strings. -/
def size (t : TrieTable) : Nat := t.trie.size

/-- The string with an identifier. -/
def string (t : TrieTable) (id : Nat) : Except StorageError String := t.trie.key id

/-- The identifier of a string. -/
def identifier? (t : TrieTable) (s : String) : Option Nat := t.trie.lookup s

/-- All strings with their identifiers, in the order of their bytes. -/
def strings (t : TrieTable) : List (Except StorageError (String × Nat)) := t.trie.withPrefix ""

instance : StringTable TrieTable where
  size := size
  identifier? := identifier?
  string := string
  encodedSize := encodedSize

/-! ## The stored form -/

/-- The encoding, three zeros, the number of strings and the trie. -/
def write (t : TrieTable) (out : Writer) : Except StorageError Writer := do
  let out := (out.put (Int8.ofInt t.encoding.number)).append [0, 0, 0]
  let out ← out.putCount t.size
  t.trie.trie.write out

/-- Reads a table. -/
def read : Reader TrieTable := do
  let start := (← get).position
  let encoding ← Reader.check (Encoding.ofNumber (← Reader.read Int8).toInt)
  Reader.skip 3
  let count ← Reader.readCount
  let trie ← ByteTrie.read
  if trie.size ≠ count then throw (.corrupt (.tableSize count trie.size))
  return ⟨⟨encoding, trie⟩, (← get).position - start⟩

end TrieTable

end Paradigm
