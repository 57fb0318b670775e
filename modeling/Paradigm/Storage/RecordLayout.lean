import Paradigm.Storage.Bits
import Paradigm.Storage.FixedInt

/-!
# Layouts of packed records

A record is one 64-bit word that holds several named fields, the first in the lowest bits.  The
widths of the fields are stored in the header of a dictionary.

## Main definitions

* `RecordLayout`: the names and widths of the fields
* `RecordLayout.ofWidths`, `RecordLayout.ofHeader`, `RecordLayout.fitting`: layouts from widths,
  from a header and for given greatest values
* `RecordLayout.fittingAll`: the layout for given records
* `RecordLayout.encode`, `RecordLayout.decode`: the fields of a record
-/

namespace Paradigm

/-- The names and widths of `n` fields, lowest bits first. -/
structure RecordLayout (n : Nat) where
  names : Vector String n
  widths : Vector UInt32 n
  deriving DecidableEq

namespace RecordLayout

variable {n : Nat}

/-- The sum of widths, which must be a 32-bit number. -/
def total (widths : List UInt32) : Checked Nat :=
  widths.foldlM (fun sum width => Checked.add halfLimit sum width.toNat) 0

/-- The number of bits of a record. -/
def totalWidth (l : RecordLayout n) : Checked Nat := total l.widths.toList

/-- The layout with the given widths, of 64 bits at most. -/
def ofWidths (names : Vector String n) (widths : Vector UInt32 n) :
    Except StorageError (RecordLayout n) := do
  if wordBits < (← total widths.toList) then throw .layoutTooWide
  return ⟨names, widths⟩

/-- A width from a header, which must not be negative. -/
def headerWidth (name : String) (width : Int8) : Except StorageError UInt32 :=
  if width < 0 then .error (.corrupt (.negativeWidth width.toInt name))
  else .ok (UInt32.ofNat width.toInt.toNat)

/-- The layout with the widths of a header. -/
def ofHeader (names : Vector String n) (widths : Vector Int8 n) :
    Except StorageError (RecordLayout n) := do
  let widths ← (names.zip widths).mapM fun (name, width) => headerWidth name width
  ofWidths names widths

/-- The layout whose fields are just wide enough for the given values. -/
def fitting (names : Vector String n) (greatest : Vector UInt64 n) :
    Except StorageError (RecordLayout n) :=
  ofWidths names (greatest.map fun value => UInt32.ofNat (bitWidth value))

/-- The greatest values of the fields of records. -/
def greatest (records : List (Vector UInt64 n)) : Vector UInt64 n :=
  records.foldl (Vector.zipWith max) (Vector.replicate n 0)

/-- The layout whose fields are just wide enough for the given records. -/
def fittingAll (names : Vector String n) (records : List (Vector UInt64 n)) :
    Except StorageError (RecordLayout n) :=
  fitting names (greatest records)

/-- The widths as a header stores them. -/
def headerWidths (l : RecordLayout n) : Vector Int8 n :=
  l.widths.map fun width => Int8.ofInt width.toNat

/-- Takes a field of a given width off the low end of a word. -/
def takeField (width : UInt32) : StateT UInt64 (Except StorageError) UInt64 := fun raw => do
  let field ← extractBits raw 0 width
  return (field, UInt64.ofNat (raw.toNat / bitLimit width.toNat))

/-- The word that holds a field from bit `shift` on; for a field without bits it is empty. -/
def placed (shift : Nat) (width : UInt32) (value : UInt64) : Checked UInt64 :=
  if 0 < width then Checked.shiftLeft value shift else .ok 0

/-- Puts fields into a word from bit `shift` on; each is given with its name and width. -/
def encodeFields (shift : Nat) : List (String × UInt32 × UInt64) → Except StorageError UInt64
  | [] => .ok 0
  | (name, width, value) :: rest => do
    if (← extractBits value 0 width) ≠ value then
      throw (.fieldOverflow name value width.toNat)
    let low ← placed shift width value
    let high ← encodeFields (← Checked.add halfLimit shift width.toNat) rest
    return low ||| high

/-- The fields of a record. -/
def decode (l : RecordLayout n) (raw : UInt64) : Except StorageError (Vector UInt64 n) :=
  (l.widths.mapM takeField).run' raw

/-- The record with the given fields; each must fit its width. -/
def encode (l : RecordLayout n) (fields : Vector UInt64 n) : Except StorageError UInt64 :=
  encodeFields 0 (l.names.toList.zip (l.widths.toList.zip fields.toList))

end RecordLayout

end Paradigm
