import Paradigm.Pattern
import Paradigm.Storage.Fields
import Paradigm.Storage.RecordLayout
import Paradigm.Store.Header
import Paradigm.Table.TrieTable
import Paradigm.Trie.StringMap

/-!
# The stored patterns of a dictionary

The patterns are kept in one packed array of slots: for each pattern its head, the identifiers of
the suffixes of its dictionary forms, and a word for each of its forms.  A head and a form refer to
the sets of grammemes, the frequencies and the suffixes by their numbers in tables.  The patterns
are found by their names, and through an optional index by the suffixes of their forms.

## Main definitions

* `PatternStore`: the tables of patterns
* `PatternStore.pattern`, `PatternStore.inflections`, `PatternStore.lemmaSuffixes`: a pattern and
  what it lists
* `PatternStore.patternIdsForSuffix`: the index by suffixes
* `PatternStore.lemma?`, `PatternStore.reinflect`: the selections of `Inflection` on stored patterns
* `PatternStore.read`, `PatternStore.write`: the stored form
-/

namespace Paradigm

/-- The tables of patterns. -/
structure PatternStore where
  /-- The sets of grammemes that heads and forms refer to. -/
  grammemeSets : PlainArray UInt64
  suffixes : TrieTable
  /-- The heads of patterns, each followed by the suffixes of dictionary forms and the forms. -/
  slots : PackedArray Int64
  formLayout : RecordLayout 2
  runLayout : RecordLayout 2
  frequencies : PlainArray Int32
  /-- The place of the head of each pattern by its name. -/
  starts : StringMap Int32
  /-- The place and length of the list of patterns of each suffix. -/
  runs : StringMap Int32
  /-- The lists of patterns. -/
  suffixIndex : PackedArray Int32
  headLayout : RecordLayout 4

namespace PatternStore

/-! ## Fields of records -/

/-- The fields of the head of a pattern. -/
def headFields : Vector String 4 := #v["num_inflections", "lemma_suffixes_len", "pos", "frequency"]

/-- The fields of a form. -/
def formFields : Vector String 2 := #v["grammemes", "suffix"]

/-- The fields of the entry of a suffix. -/
def runFields : Vector String 2 := #v["count", "offset"]

/-! ## Tables -/

/-- The number of patterns. -/
def size (s : PatternStore) : Nat := s.starts.size

/-- The identifier of the pattern with a name. -/
def identifier? (s : PatternStore) (name : String) : Option Nat := s.starts.keyId? name

/-- The name of a pattern. -/
def name (s : PatternStore) (id : Nat) : Except StorageError String := s.starts.key id

/-- A set of grammemes by its number. -/
def grammemeSet (s : PatternStore) (index : Nat) : Except StorageError Mask :=
  s.grammemeSets.get index

/-- A frequency by its number. -/
def frequency (s : PatternStore) (index : Nat) : Except StorageError Int32 :=
  s.frequencies.get index

/-- A suffix by its identifier. -/
def suffix (s : PatternStore) (id : Nat) : Except StorageError String := s.suffixes.string id

/-- The identifier of a suffix. -/
def suffixId? (s : PatternStore) (suffix : String) : Option Nat := s.suffixes.identifier? suffix

/-- A slot as a word. -/
def slot (s : PatternStore) (index : Nat) : Except StorageError UInt64 :=
  Int64.toUInt64 <$> s.slots.get index

/-! ## Patterns -/

/-- The head of a pattern. -/
def record (s : PatternStore) (id : Nat) : Except StorageError PatternRecord := do
  let start ← s.starts.value id
  if start < 0 then throw (.corrupt (.negativeRecord id))
  let start := start.toInt.toNat
  let (forms, lemmas, pos, frequency) := quadrupleOf (← s.headLayout.decode (← s.slot start))
  return ⟨start, forms.toNat, lemmas.toNat, pos.toNat, frequency.toNat⟩

/-- A pattern by its identifier. -/
def pattern (s : PatternStore) (id : Nat) : Except StorageError Pattern := do
  let record ← s.record id
  return ⟨id, record, ← s.grammemeSet record.posIndex⟩

/-- The pattern with a name, if there is one. -/
def patternNamed? (s : PatternStore) (name : String) : Except StorageError (Option Pattern) :=
  (s.identifier? name).mapM s.pattern

/-- The grammemes and the suffix of the form in a slot. -/
def entry (s : PatternStore) (index : Nat) : Except StorageError (Mask × Nat) := do
  let (set, suffix) := pairOf (← s.formLayout.decode (← s.slot index))
  return (← s.grammemeSet set.toNat, suffix.toNat)

/-- A form of a pattern by its number. -/
def inflectionAt (s : PatternStore) (p : Pattern) (index : Nat) :
    Except StorageError Inflection := do
  if p.record.inflectionCount ≤ index then
    throw (.indexOutOfBounds index p.record.inflectionCount)
  let place ← Checked.add addressLimit (← p.record.formsOffset) index
  let (grammemes, suffixId) ← s.entry place
  return ⟨p, suffixId, ← s.suffix suffixId, grammemes⟩

/-- The forms of a pattern, in stored order. -/
def inflections (s : PatternStore) (p : Pattern) : Except StorageError (List Inflection) :=
  valuesFrom (s.inflectionAt p) 0 p.record.inflectionCount

/-- The identifiers of the suffixes of dictionary forms. -/
def lemmaSuffixIds (s : PatternStore) (p : Pattern) : Except StorageError (List Nat) := do
  let start ← p.record.lemmaOffset
  let stop ← Checked.add addressLimit start p.record.lemmaCount
  return (← valuesFrom s.slot start (stop - start)).map UInt64.toNat

/-- The suffixes of dictionary forms. -/
def lemmaSuffixes (s : PatternStore) (p : Pattern) : Except StorageError (List String) := do
  (← s.lemmaSuffixIds p).mapM s.suffix

/-- The forms with a suffix of dictionary forms. -/
def lemmaMatches (s : PatternStore) (p : Pattern) : Except StorageError (List Inflection) := do
  let suffixIds ← s.lemmaSuffixIds p
  return Inflection.withSuffixIds suffixIds (← s.inflections p)

/-- A form of the pattern has the suffix. -/
def containsSuffix (s : PatternStore) (p : Pattern) (suffix : String) :
    Except StorageError Bool := do
  return (← s.inflections p).any (·.suffix == suffix)

/-- The forms that a word may be in. -/
def surfaceForms (s : PatternStore) (p : Pattern) (word : String) (mask : Mask) :
    Except StorageError (List Inflection) :=
  Inflection.ofSurface word mask <$> s.inflections p

/-- The form that stands for the words of a pattern.  The suffixes of dictionary forms are read only
when several forms have the same rank. -/
def lemma? (s : PatternStore) (p : Pattern) (requested : Mask) (attributes : List Mask) :
    Except StorageError (Option Inflection) := do
  match Inflection.bestLemmas requested attributes (← s.inflections p) with
  | [] => return none
  | [i] => return some i
  | candidates => return Inflection.lemmaAmong (← s.lemmaSuffixes p) candidates

/-- A word with the grammemes `source`, brought into a form with the grammemes `target`.  The forms
are read only when the word has to change. -/
def reinflect (s : PatternStore) (p : Pattern) (source target : Mask) (optional : List Mask)
    (word : String) : Except StorageError (Option String) := do
  if target = 0 ∨ source.includes target then return some word
  return Inflection.reinflect source target optional word (← s.inflections p)

/-! ## The index by suffixes -/

/-- The patterns are listed by suffixes. -/
def hasSuffixIndex (s : PatternStore) : Bool := !s.suffixIndex.isEmpty

/-- The patterns that are listed under a suffix. -/
def patternIdsForSuffix (s : PatternStore) (suffix : String) : Except StorageError (List Nat) := do
  match ← s.runs.find? suffix with
  | none => return []
  | some run =>
    let (count, start) := pairOf (← s.runLayout.decode run.toUInt32.toUInt64)
    let ids ← s.suffixIndex.run start.toNat count.toNat
    return ids.map fun id => id.toUInt32.toNat

/-! ## The stored form -/

/-- The version of the layout of the tables. -/
def version : Int64 := 3

/-- Writes the tables, with the widths of records after the tables that they belong to. -/
def write (s : PatternStore) (out : Writer) : Except StorageError Writer := do
  let out := (out.putVersion version).put (0 : Int16)
  let out ← out.putCount s.grammemeSets.size
  let out ← s.suffixes.write (out.putArray s.grammemeSets)
  let out ← s.slots.write out
  let (set, suffix) := pairOf s.formLayout.headerWidths
  let (count, start) := pairOf s.runLayout.headerWidths
  let out := out.putAll [set, suffix, start, count]
  let out ← out.putCount s.frequencies.size
  let out ← s.starts.write (out.putArray s.frequencies)
  let out ← s.runs.write out
  let out ← s.suffixIndex.write out
  let (forms, lemmas, pos, frequency) := quadrupleOf s.headLayout.headerWidths
  return out.putAll [frequency, pos, lemmas, forms, 0]

/-- Reads the tables.  The widths of records are checked when everything has been read. -/
def read : Reader PatternStore := do
  Reader.readVersion version
  let _ ← Reader.read Int16
  let grammemeSets ← Reader.readPlainArray UInt64 (← Reader.readCount)
  let suffixes ← TrieTable.read
  let slots ← PackedArray.read Int64
  let (set, suffix, start, count) := quadrupleOf (← Reader.readVector Int8 4)
  let frequencies ← Reader.readPlainArray Int32 (← Reader.readCount)
  let starts ← StringMap.read Int32
  let runs ← StringMap.read Int32
  let suffixIndex ← PackedArray.read Int32
  let (frequency, pos, lemmas, forms, _) := quintupleOf (← Reader.readVector Int8 5)
  let formLayout ← Reader.check (RecordLayout.ofHeader formFields (twoFields set suffix))
  let runLayout ← Reader.check (RecordLayout.ofHeader runFields (twoFields count start))
  let headLayout ←
    Reader.check (RecordLayout.ofHeader headFields (fourFields forms lemmas pos frequency))
  return ⟨grammemeSets, suffixes, slots, formLayout, runLayout, frequencies, starts, runs,
    suffixIndex, headLayout⟩

end PatternStore

end Paradigm
