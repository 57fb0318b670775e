import Paradigm.Store.Patterns
import Paradigm.Table.SortedTable

/-!
# The stored words of a dictionary

Each word has a data word, which refers to its set of grammemes and to the map of its properties.
Where many words share few data words, these are kept once and the words refer to them by number.

A property map lies in an array of slots: an entry for each property with its key and the number of
its values, in the order of keys, and then the identifiers of all values in the same order.  The
first entry also tells how many there are.  The values of the property `inflection` are the patterns
of the word; the values of all others are strings in a table.

## Main definitions

* `WordStore`: the tables of a dictionary
* `WordStore.wordGrammemes?`: the grammemes of a word
* `WordStore.wordProperty?`: the values of a property of a word
* `WordStore.grammeme?`, `WordStore.grammemeNames`: from the name of a grammeme to its mask and back
* `WordStore.load`, `WordStore.write`: the stored form
-/

namespace Paradigm

open Text (Encoding)

/-- The tables of a dictionary. -/
structure WordStore where
  language : String
  /-- The names of the grammemes; the identifier of a name is the number of its bit in masks. -/
  grammemes : SortedTable
  dataLayout : RecordLayout 2
  mapLayout : RecordLayout 3
  /-- The data word of each word, or its number. -/
  words : StringMap UInt64
  /-- The sets of grammemes that data words refer to; the first one stands for none. -/
  grammemeSets : PlainArray UInt64
  /-- The distinct data words, if words refer to them by number. -/
  sharedData : PackedArray UInt64
  propertyNames : SortedTable
  propertyValues : TrieTable
  /-- The property maps; the first slot belongs to none. -/
  propertyMaps : PackedArray Int32
  patterns : Option PatternStore

/-- The name of the property that lists the patterns of a word. -/
def inflectionProperty : String := "inflection"

namespace WordStore

/-! ## Fields of records -/

/-- The fields of a data word. -/
def dataFields : Vector String 2 := #v["type_singleton", "property_map"]

/-- The fields of an entry of a property map. -/
def mapFields : Vector String 3 := #v["property_key", "values_len", "map_len"]

/-! ## Grammemes -/

/-- The number of words. -/
def size (s : WordStore) : Nat := s.words.size

/-- The number of grammemes. -/
def grammemeCount (s : WordStore) : Nat := s.grammemes.size

/-- The mask of the grammeme with a name. -/
def grammeme? (s : WordStore) (name : String) : Option Mask :=
  s.grammemes.identifier? name >>= Mask.ofIdentifier?

/-- The mask of those of the names that are known. -/
def knownGrammemes (s : WordStore) (names : List String) : Mask :=
  Mask.union (names.filterMap s.grammeme?)

/-- The name of the grammeme with a mask. -/
def grammemeName? (s : WordStore) (mask : Mask) : Option String :=
  mask.identifier? >>= fun id => (s.grammemes.string id).toOption

/-- The names of the grammemes of a set, lowest bit first. -/
def grammemeNames (s : WordStore) (mask : Mask) : List String :=
  mask.singles.filterMap s.grammemeName?

/-! ## Words -/

/-- Words refer to their data words by number. -/
def hasSharedData (s : WordStore) : Bool := !s.sharedData.isEmpty

/-- The data word of a word. -/
def data? (s : WordStore) (word : String) : Except StorageError (Option UInt64) := do
  match ← s.words.find? word with
  | none => return none
  | some raw =>
    if s.hasSharedData then return some (← s.sharedData.get raw.toNat) else return some raw

/-- The grammemes of a word, if any are stored for it. -/
def wordGrammemes? (s : WordStore) (word : String) : Except StorageError (Option Mask) := do
  match ← s.data? word with
  | none => return none
  | some data =>
    let (set, _) := pairOf (← s.dataLayout.decode data)
    if set = 0 then return none
    return some (← s.grammemeSets.get set.toNat)

/-- All words, in the order of their bytes. -/
def allWords (s : WordStore) : List (Except StorageError String) :=
  (s.words.withPrefix "").map (Prod.fst <$> ·)

/-! ## Properties -/

/-- The key of the property with a name. -/
def propertyKey? (s : WordStore) (property : String) : Option Nat :=
  s.propertyNames.identifier? property

/-- The key of the property that lists the patterns of a word. -/
def inflectionKey? (s : WordStore) : Option Nat := s.propertyKey? inflectionProperty

/-- An entry of a property map: its key, the number of its values, and in the first entry of a map
the number of entries. -/
structure MapEntry where
  key : Nat
  valueCount : Nat
  entryCount : Nat

/-- The entry of a property map in a slot. -/
def mapEntry (s : WordStore) (index : Nat) : Except StorageError MapEntry := do
  let raw ← s.propertyMaps.get index
  let (key, values, entries) := tripleOf (← s.mapLayout.decode raw.toUInt32.toUInt64)
  return ⟨key.toNat, values.toNat, entries.toNat⟩

/-- The identifiers of values in slots from `start` on. -/
def valueIds (s : WordStore) (start count : Nat) : Except StorageError (List Nat) := do
  return (← s.propertyMaps.run start count).map fun id => id.toUInt32.toNat

/-- Looks for a key in the `count` entries from `index` on, whose values begin in the slot `values`.
Keys are in order, so that a greater key ends the search. -/
def findValues (s : WordStore) (key index values : Nat) :
    Nat → Except StorageError (Option (List Nat))
  | 0 => .ok none
  | count + 1 => do
    let e ← s.mapEntry index
    -- keys are in order, so no later entry has the key
    if key < e.key then return none
    if key = e.key then return some (← s.valueIds values e.valueCount)
    findValues s key (index + 1) (values + e.valueCount) count

/-- The identifiers of the values of a property of a word. -/
def propertyIds? (s : WordStore) (word : String) (key : Nat) :
    Except StorageError (Option (List Nat)) := do
  match ← s.data? word with
  | none => return none
  | some data =>
    let (_, place) := pairOf (← s.dataLayout.decode data)
    if place = 0 then return none
    let start := place.toNat
    let count := (← s.mapEntry start).entryCount
    s.findValues key start (start + count) count

/-- The value of a property by its identifier: the name of a pattern or a string. -/
def propertyValue (s : WordStore) (key id : Nat) : Except StorageError String :=
  match s.patterns with
  | some patterns =>
    if s.inflectionKey? = some key then patterns.name id else s.propertyValues.string id
  | none => s.propertyValues.string id

/-- The values of a property of a word. -/
def wordProperty? (s : WordStore) (word property : String) :
    Except StorageError (Option (List String)) := do
  match s.propertyKey? property with
  | none => return none
  | some key =>
    match ← s.propertyIds? word key with
    | none => return none
    | some ids => return some (← ids.mapM (s.propertyValue key))

/-! ## The stored form -/

/-- The bytes that a dictionary begins with. -/
def magic : List UInt8 := [0x4D, 0x4F, 0x52, 0x50, 0x48, 0x53, 0x44, 0]

/-- The version of the layout of the tables. -/
def version : Int64 := 7

/-- The option that is set when there are patterns. -/
def patternsOption : Int16 := 1

/-- The number of bytes of a language code. -/
def languageLength : Nat := 4

/-- The number of bytes up to the mark of the order of bytes; no dictionary is shorter. -/
def minimumSize : Nat := 18

/-- The stored form of a language code, filled up with zeros. -/
def languageBytes (language : String) : Except StorageError (List UInt8) :=
  let code := Encoding.utf8.encode language
  if languageLength < code.length then
    .error (.corrupt (.languageTooLong language languageLength))
  else .ok (code ++ List.replicate (languageLength - code.length) 0)

/-- The language code that is stored up to the first zero. -/
def languageOfBytes (code : List UInt8) : Except StorageError String :=
  Encoding.utf8.decode (code.takeWhile (· ≠ 0))

/-- The width of the number of entries of a property map, for a given number of properties. -/
def entryCountWidth (properties : Nat) : Nat := bitWidth (UInt64.ofNat properties)

/-- Writes the tables, with the widths of records after the names of grammemes. -/
def write (s : WordStore) (out : Writer) : Except StorageError Writer := do
  let code ← languageBytes s.language
  let out := (out.putAll magic).putVersion version
  let out := (out.put (if s.patterns.isSome then patternsOption else 0)).putAll code
  let out ← s.grammemes.write out
  let (set, place) := pairOf s.dataLayout.headerWidths
  let (key, values, _) := tripleOf s.mapLayout.headerWidths
  let out := out.putAll [set, place, key, values]
  let out ← out.putCount s.grammemeSets.size
  let out ← s.words.write out
  let out ← s.sharedData.write (out.putArray s.grammemeSets)
  let out ← s.propertyNames.write out
  let out ← s.propertyValues.write out
  let out ← s.propertyMaps.write out
  match s.patterns with
  | some patterns => patterns.write out
  | none => return out

/-- Reads the tables.  The widths of records are checked when everything has been read. -/
def read : Reader WordStore := do
  let start ← Reader.readArray UInt8 magic.length
  if start ≠ magic then throw .invalidMagic
  Reader.readVersion version
  let options ← Reader.read Int16
  let language ← Reader.check (languageOfBytes (← Reader.readArray UInt8 languageLength))
  let grammemes ← SortedTable.read
  let (set, place, key, values) := quadrupleOf (← Reader.readVector Int8 4)
  let setCount ← Reader.readCount
  let words ← StringMap.read UInt64
  let grammemeSets ← Reader.readPlainArray UInt64 setCount
  let sharedData ← PackedArray.read UInt64
  let propertyNames ← SortedTable.read
  let propertyValues ← TrieTable.read
  let propertyMaps ← PackedArray.read Int32
  let patterns ←
    if options &&& patternsOption ≠ 0 then some <$> PatternStore.read else pure none
  let dataLayout ← Reader.check (RecordLayout.ofHeader dataFields (twoFields set place))
  let countWidth := Int8.ofNat (entryCountWidth propertyNames.size)
  let mapLayout ←
    Reader.check (RecordLayout.ofHeader mapFields (threeFields key values countWidth))
  return ⟨language, grammemes, dataLayout, mapLayout, words, grammemeSets, sharedData,
    propertyNames, propertyValues, propertyMaps, patterns⟩

/-- The tables in a file; one that cannot hold the start of a dictionary is refused at once. -/
def load (file : View) : Except StorageError WordStore :=
  if file.size < minimumSize then .error (.tooShort minimumSize file.size) else read.run file

end WordStore

end Paradigm
