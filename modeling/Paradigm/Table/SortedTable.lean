import Paradigm.Storage.Writer
import Paradigm.Table.Strings
import Paradigm.Text.Units
import Paradigm.Trie.ByteTrie

/-!
# Sorted tables of strings

The strings of a small vocabulary lie one after the other in UTF-16, each closed by a zero.  An
entry for each string, in the order of code units, gives its place in 24 bits and its length in
eight.

## Main definitions

* `SortedTable.ofList`: the table of a list of strings
* `SortedTable.identifier?`: binary search in the order of code units
* `SortedTable.string`: the string of an entry
* `SortedTable.read`, `SortedTable.write`: the stored form
-/

namespace Paradigm

/-- A sorted table. -/
structure SortedTable where
  entries : PlainArray UInt32
  units : PlainArray UInt16
  deriving DecidableEq

namespace SortedTable

/-! ## Entries -/

/-- The greatest length of a string in code units. -/
def maxLength : Nat := 255

/-- The greatest place of a string. -/
def maxOffset : Nat := 0xFFFFFF

/-- The entry of a string at a place. -/
def entry (offset length : Nat) : UInt32 := UInt32.ofNat (offset * 256 + length)

/-- The place that an entry gives. -/
def offsetOf (entry : UInt32) : Nat := entry.toNat / 256

/-- The length that an entry gives. -/
def lengthOf (entry : UInt32) : Nat := entry.toNat % 256

/-! ## Building -/

/-- The distinct strings of a list as code units, in order. -/
def distinctUnits (strings : List String) : List (List Nat) :=
  ((strings.map Text.units).mergeSort fun u v => !decide (v < u)).eraseReps

/-- The entries of strings that lie one after the other from a place on.  A string that is too long
is refused, and so is one that lies too far from the start. -/
def entriesFrom (offset : Nat) : List (List Nat) → Except StorageError (List UInt32)
  | [] => .ok []
  | s :: rest =>
    if maxLength < s.length then .error (.stringTooLarge s.length)
    else if maxOffset < offset then .error .offsetOverflow
    else do
      let entries ← entriesFrom (offset + s.length + 1) rest
      return entry offset s.length :: entries

/-- The table of the strings of a list; their order and repetitions do not matter. -/
def ofList (strings : List String) : Except StorageError SortedTable := do
  let sorted := distinctUnits strings
  let entries ← entriesFrom 0 sorted
  return {
    entries := .ofList entries
    units := .ofList (sorted.flatMap fun s => s.map UInt16.ofNat ++ [0]) }

/-! ## Queries -/

/-- The number of strings. -/
def size (t : SortedTable) : Nat := t.entries.size

/-- The code units of the string with an identifier. -/
def unitsAt (t : SortedTable) (id : Nat) : Except StorageError (List Nat) := do
  let e ← t.entries.get id
  let us ← t.units.range (offsetOf e) (offsetOf e + lengthOf e)
  return us.map UInt16.toNat

/-- The string with an identifier. -/
def string (t : SortedTable) (id : Nat) : Except StorageError String := do
  match Text.Units.decode? (← t.unitsAt id) with
  | some cs => return String.ofList cs
  | none => throw .malformedString

/-- Looks for code units among the strings from `low` on, up to `high`, by halving the run. -/
def search (t : SortedTable) (needle : List Nat) (low high : Nat) : Option Nat :=
  if low < high then
    let mid := low + (high - low) / 2
    match t.unitsAt mid with
    -- an entry that cannot be read ends the search
    | .error _ => none
    | .ok candidate =>
      if needle = candidate then some mid
      else if needle < candidate then search t needle low mid
      else search t needle (mid + 1) high
  else none
  termination_by high - low

/-- The identifier of a string. -/
def identifier? (t : SortedTable) (s : String) : Option Nat := t.search (Text.units s) 0 t.size

/-- All strings, in the order of their identifiers. -/
def strings (t : SortedTable) : List (Except StorageError String) :=
  (List.range t.size).map t.string

instance : StringTable SortedTable where
  size := size
  identifier? := identifier?
  string := string
  encodedSize t := 8 + t.entries.size * 4 + t.units.size * 2

/-! ## The stored form -/

/-- The numbers of entries and code units, the entries, the code units, and zeros up to the end of
the section. -/
def write (t : SortedTable) (out : Writer) : Except StorageError Writer := do
  let out ← out.putCount t.entries.size
  let out ← out.putCount t.units.size
  return ((out.putArray t.entries).putArray t.units).padTo sectionAlignment

/-- The first entry that reaches beyond the code units. -/
def overrun? (t : SortedTable) : Option UInt32 :=
  t.entries.toList.find? fun e => t.units.size < offsetOf e + lengthOf e

/-- Reads a table. -/
def read : Reader SortedTable := do
  let count ← Reader.readCount
  let unitCount ← Reader.readCount
  let entries ← Reader.readPlainArray UInt32 count
  let units ← Reader.readPlainArray UInt16 unitCount
  Reader.skipPadding sectionAlignment
  let t : SortedTable := ⟨entries, units⟩
  match t.overrun? with
  | none => return t
  | some e => throw (.corrupt (.stringEntry (offsetOf e) (lengthOf e) unitCount))

end SortedTable

end Paradigm
