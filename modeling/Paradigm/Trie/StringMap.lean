import Paradigm.Storage.PackedArray
import Paradigm.Trie.StringTrie

/-!
# Maps from strings to integers

The keys are kept in a trie and the values in a packed array, under the identifiers of their keys.

## Main definitions

* `StringMap.ofList`: the map with given entries
* `StringMap.find?`: the value of a string
* `StringMap.key`, `StringMap.value`: the entry with an identifier
* `StringMap.read`, `StringMap.write`: the stored form
-/

namespace Paradigm

open Text (Encoding)

/-- A map from strings to integers; there is no trie when there are no keys. -/
structure StringMap (α : Type) where
  trie : Option StringTrie
  values : PackedArray α

namespace StringMap

variable {α : Type}

/-- The number of keys. -/
def size (m : StringMap α) : Nat := m.trie.elim 0 StringTrie.size

/-- The encoding of the keys; UTF-8 when there are none. -/
def encoding (m : StringMap α) : Encoding := m.trie.elim .utf8 StringTrie.encoding

/-- The identifier of a key. -/
def keyId? (m : StringMap α) (key : String) : Option Nat := m.trie >>= (·.lookup key)

/-- The key with an identifier. -/
def key (m : StringMap α) (id : Nat) : Except StorageError String :=
  match m.trie with
  | some t => t.key id
  | none => .error (.indexOutOfBounds id 0)

/-- The keys that begin with `start` and their identifiers, in the order of their bytes. -/
def withPrefix (m : StringMap α) (start : String) : List (Except StorageError (String × Nat)) :=
  m.trie.elim [] (·.withPrefix start)

/-- Puts each value under the identifier of its key. -/
def arrange (t : StringTrie) (values : Array α) :
    List (String × α) → Except StorageError (Array α)
  | [] => .ok values
  | (key, value) :: rest =>
    match t.lookup key with
    | some id => do arrange t (← Checked.replace values id value) rest
    | none => .error (.notFound key)

variable [FixedInt α]

/-- The map with the given entries, whose keys must be distinct. -/
def ofList (entries : List (String × α)) : Except StorageError (StringMap α) := do
  if entries.isEmpty then return ⟨none, ← PackedArray.ofList []⟩
  -- a trie with fewer keys than entries tells that keys are repeated
  let t := StringTrie.ofKeys (entries.map Prod.fst)
  if t.size ≠ entries.length then
    throw (.corrupt (.duplicateKeys (entries.length - t.size)))
  let values ← arrange t (Array.replicate entries.length (FixedInt.ofNat 0)) entries
  return ⟨some t, ← PackedArray.ofList values.toList⟩

/-- The value of a string, if it is a key. -/
def find? (m : StringMap α) (key : String) : Except StorageError (Option α) :=
  match m.keyId? key with
  | some id => (m.values.get id).map some
  | none => .ok none

/-- The value with an identifier. -/
def value (m : StringMap α) (id : Nat) : Except StorageError α :=
  if id < m.size then m.values.get id else .error (.indexOutOfBounds id m.size)

/-! ## The stored form -/

/-- The number of keys, the encoding, a reserved number, the values and the trie. -/
def write (m : StringMap α) (out : Writer) : Except StorageError Writer := do
  let out ← out.putCount m.size
  let out := out.put (Int16.ofInt m.encoding.number)
  let out ← m.values.write (out.put (0 : Int16))
  match m.trie with
  | some t => t.trie.write out
  | none => return out

/-- Reads a map; there is no trie to read when there are no keys. -/
def read (α : Type) : Reader (StringMap α) := do
  let count ← Reader.readCount
  let encoding ← Reader.check (Encoding.ofNumber (← Reader.read Int16).toInt)
  let _ ← Reader.read Int16
  let values ← PackedArray.read α
  if count = 0 then return ⟨none, values⟩
  let trie ← ByteTrie.read
  if trie.size ≠ count ∨ values.length < count then
    throw (.corrupt (.mapSize count trie.size values.length))
  return ⟨some ⟨encoding, trie⟩, values⟩

end StringMap

end Paradigm
