import Paradigm.Storage.Cursor

/-!
# Writing in order

The sections of a dictionary are written one after the other, integers low byte first.

## Main definitions

* `Writer`: the bytes written so far
* `Writer.put`, `Writer.putAll`, `Writer.putCount`, `Writer.putArray`: integers
* `Writer.padTo`: zeros up to an aligned position
-/

namespace Paradigm

/-- The bytes written so far. -/
structure Writer where
  bytes : ByteArray

namespace Writer

/-- Nothing is written yet. -/
def empty : Writer := ⟨.empty⟩

/-- The number of bytes written. -/
def position (w : Writer) : Nat := w.bytes.size

/-- The bytes written, as a list. -/
def toList (w : Writer) : List UInt8 := w.bytes.data.toList

/-- The bytes written, as a view. -/
def toView (w : Writer) : View := ⟨w.bytes, false⟩

/-- Writes bytes. -/
def append (w : Writer) (bytes : List UInt8) : Writer := ⟨w.bytes ++ bytes.toByteArray⟩

variable {α : Type} [FixedInt α]

/-- Writes an integer. -/
def put (w : Writer) (a : α) : Writer := w.append (FixedInt.toBytes a)

/-- Writes integers. -/
def putAll (w : Writer) (as : List α) : Writer := w.append (as.flatMap FixedInt.toBytes)

/-- Writes an array; the bytes of one that is read in place are copied. -/
def putArray (w : Writer) : PlainArray α → Writer
  | .owned values => w.putAll values.toList
  | .inPlace bytes _ => w.append bytes.data.toList

/-- Writes a number of elements, which must be one of 31 bits. -/
def putCount (w : Writer) (count : Nat) : Except StorageError Writer :=
  if count < countLimit then .ok (w.put (Int32.ofNat count))
  else .error (.corrupt (.countTooLarge count))

/-- Writes zeros up to the next multiple of `align`. -/
def padTo (w : Writer) (align : Nat) : Writer :=
  w.append (List.replicate (paddingFor w.position align) 0)

end Writer

end Paradigm
