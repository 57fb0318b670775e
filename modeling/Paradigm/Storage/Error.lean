import Paradigm.Locale
import Paradigm.Storage.Checked

/-!
# What goes wrong in stored data

Reading a dictionary fails on data that is too short, of another version or contradictory; building
one fails on what the format cannot hold; and queries fail on indexes beyond the end.

Two failures are no answers.  Where a number is out of range the program ends, and where it goes
round in a circle it does not.  They are told apart from the failures that a caller is given.

## Main definitions

* `Corruption`: the contradictions in stored data
* `StorageError`: all failures, with their wording in `StorageError.message`
* `StorageError.isAnswer`: the failures that a caller is given
-/

namespace Paradigm

/-- A contradiction in stored data, or a value that the format has no room for. -/
inductive Corruption where
  | negativeCount (count : Int)
  | countTooLarge (count : Nat)
  | packedWidth (width : Int)
  | negativeWidth (width : Int) (field : String)
  | trieShape (nodes treeBits terminalBits : Nat)
  | orphanNode (node : Nat)
  | duplicateKeys (count : Nat)
  | mapSize (declared keys values : Nat)
  | tableSize (declared keys : Nat)
  | stringEntry (offset length units : Nat)
  | languageTooLong (language : String) (limit : Nat)
  | badLanguage (cause : Locale.Error)
  | negativeRecord (pattern : Nat)
  deriving DecidableEq, Repr

/-- The wording of a contradiction. -/
def Corruption.message : Corruption → String
  | negativeCount count => s!"negative count {count}"
  | countTooLarge count => s!"count {count} exceeds the i32 range"
  | packedWidth width => s!"invalid packed array width {width}"
  | negativeWidth width field => s!"negative width {width} for `{field}`"
  | trieShape nodes treeBits terminalBits =>
    s!"trie shape mismatch: {nodes} nodes, {treeBits} tree bits, {terminalBits} terminal bits"
  | orphanNode node => s!"trie node {node} has no parent"
  | duplicateKeys count => s!"{count} duplicate keys in trie map"
  | mapSize declared keys values =>
    s!"trie map declares {declared} keys, trie holds {keys} and values {values}"
  | tableSize declared keys => s!"string container declares {declared} strings, trie holds {keys}"
  | stringEntry offset length units =>
    s!"string entry {offset}+{length} beyond {units} code units"
  | languageTooLong language limit => s!"language code `{language}` longer than {limit} bytes"
  | badLanguage cause => s!"dictionary language: {cause.message}"
  | negativeRecord pattern => s!"negative record start for pattern {pattern}"

/-- A failure to read, build or query stored data. -/
inductive StorageError where
  | tooShort (expected actual : Nat)
  | invalidMagic
  | incompatibleVersion (found expected : Int)
  | endiannessMismatch (found : Int)
  | indexOutOfBounds (index length : Nat)
  | illegalRange (start length : Nat)
  | notFound (string : String)
  | stringTooLarge (length : Nat)
  | offsetOverflow
  | invalidEncoding (number : Int)
  | malformedString
  | fieldOverflow (field : String) (value : UInt64) (width : Nat)
  | readOnly
  | layoutTooWide
  | corrupt (cause : Corruption)
  | io
  /-- A number is out of range, and the program ends. -/
  | outOfRange (fault : RangeFault)
  /-- The program goes round in a circle. -/
  | endless
  deriving DecidableEq, Repr

/-- The failure is given to the caller. -/
def StorageError.isAnswer : StorageError → Bool
  | outOfRange _ | endless => false
  | _ => true

instance : MonadLift Checked (Except StorageError) where
  monadLift x := x.mapError .outOfRange

/-- The wording of a failure. -/
def StorageError.message : StorageError → String
  | tooShort expected actual =>
    s!"data too short: expected at least {expected} bytes, got {actual}"
  | invalidMagic => "invalid magic marker in dictionary header"
  | incompatibleVersion found expected =>
    s!"incompatible version {found}, expected version {expected}"
  | endiannessMismatch found =>
    s!"dictionary was built for a different architecture (endianness marker {found})"
  | indexOutOfBounds index length => s!"index {index} out of bounds for length {length}"
  | illegalRange start length => s!"illegal bit range: start {start}, length {length}"
  | notFound string => s!"string not found: {string}"
  | stringTooLarge length => s!"string of {length} code units exceeds the 255 unit limit"
  | offsetOverflow => "string table exceeds the 24-bit offset limit"
  | invalidEncoding number => s!"unknown key encoding {number}"
  | malformedString => "malformed encoded string"
  | fieldOverflow field value width =>
    s!"value {value} does not fit in the {width}-bit field `{field}`"
  | readOnly => "cannot modify a memory-mapped array"
  | layoutTooWide => "record layout is wider than 64 bits"
  | corrupt cause => s!"corrupt dictionary data: {cause.message}"
  | io => "I/O error"
  | outOfRange _ => "number out of range"
  | endless => "endless loop"

end Paradigm
