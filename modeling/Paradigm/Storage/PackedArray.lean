import Paradigm.Storage.Bits
import Paradigm.Storage.Run
import Paradigm.Storage.Writer

/-!
# Packed arrays

Values of one bit width are stored back to back in 64-bit words, lowest bits first, so that a value
may lie across two words.  An array built in memory can be written to; one read from a dictionary
cannot, and its length is the number of whole values that fit in its words.

## Main definitions

* `PackedArray`: the words, with the width and the number of the values in them
* `PackedArray.zeros`, `PackedArray.ofList`: arrays in memory
* `PackedArray.get`, `PackedArray.set`: one value; the second is a step that changes the array
* `PackedArray.read`, `PackedArray.write`: the stored form
-/

namespace Paradigm

/-- Integers of a common bit width in words. -/
structure PackedArray (α : Type) where
  words : Array UInt64
  length : Nat
  width : Nat
  mapped : Bool
  width_pos : 1 ≤ width
  width_le : width ≤ wordBits
  /-- The values lie within the words. -/
  fits : length * width ≤ words.size * wordBits

namespace PackedArray

variable {α : Type}

/-- There are no words. -/
def isEmpty (a : PackedArray α) : Bool := a.words.isEmpty

/-- The two words from word `i` on, as one number; there are zeros beyond the end. -/
def pair (words : Array UInt64) (i : Nat) : Nat :=
  words[i]?.elim 0 UInt64.toNat + bitLimit wordBits * words[i + 1]?.elim 0 UInt64.toNat

/-- Replaces `width` bits of a number from bit `start` on. -/
def splice (n start width value : Nat) : Nat :=
  n % bitLimit start + bitLimit start * (value + bitLimit width * (n / bitLimit (start + width)))

/-- The bits of the value at an index. -/
def bits (a : PackedArray α) (index : Nat) : Nat :=
  let start := index * a.width
  pair a.words (start / wordBits) / bitLimit (start % wordBits) % bitLimit a.width

/-- The words with other bits for the value at an index. -/
def withBits (a : PackedArray α) (index value : Nat) : Array UInt64 :=
  let start := index * a.width
  let word := start / wordBits
  -- both words are written, the second unchanged where the value ends in the first
  let n := splice (pair a.words word) (start % wordBits) a.width value
  (a.words.setIfInBounds word (UInt64.ofNat n)).setIfInBounds (word + 1)
    (UInt64.ofNat (n / bitLimit wordBits))

theorem size_withBits (a : PackedArray α) (index value : Nat) :
    (a.withBits index value).size = a.words.size := by
  simp [withBits]

/-- The array with other bits for the value at an index. -/
def replaceBits (a : PackedArray α) (index value : Nat) : PackedArray α :=
  { a with
    words := a.withBits index value
    fits := by rw [size_withBits]; exact a.fits }

@[simp] theorem words_replaceBits (a : PackedArray α) (index value : Nat) :
    (a.replaceBits index value).words = a.withBits index value := rfl

@[simp] theorem width_replaceBits (a : PackedArray α) (index value : Nat) :
    (a.replaceBits index value).width = a.width := rfl

@[simp] theorem length_replaceBits (a : PackedArray α) (index value : Nat) :
    (a.replaceBits index value).length = a.length := rfl

/-! ## Arrays in memory -/

/-- `length` zeros of `width` bits. -/
def zeros (width length : Nat) : Except StorageError (PackedArray α) :=
  if h : 1 ≤ width ∧ width ≤ wordBits then
    if length * width < addressLimit then
      .ok {
        words := Array.replicate ((length * width + 63) / 64) 0
        length, width
        mapped := false
        width_pos := h.1
        width_le := h.2
        fits := by simp only [Array.size_replicate, wordBits]; omega }
    else .error (.indexOutOfBounds length 0)
  else .error (.illegalRange 0 width)

variable [FixedInt α]

/-- The value at an index. -/
def get (a : PackedArray α) (index : Nat) : Except StorageError α :=
  if index < a.length then .ok (FixedInt.ofNat (a.bits index))
  else .error (.indexOutOfBounds index a.length)

/-- The values at `count` indexes from `start` on. -/
def run (a : PackedArray α) (start count : Nat) : Except StorageError (List α) :=
  valuesFrom a.get start count

/-- A step on an array.  When it fails, the array stays as the failing part left it. -/
abbrev Step (α : Type) := EStateM StorageError (PackedArray α)

/-- Replaces the value at an index.  The new value must fit the width, which is checked first. -/
def set (index : Nat) (value : α) : Step α Unit := do
  let a ← getThe (PackedArray α)
  let word := FixedInt.toWord value
  if bitLimit a.width ≤ word.toNat then throw (.fieldOverflow "value" word a.width)
  if a.length ≤ index then throw (.indexOutOfBounds index a.length)
  if a.mapped then throw .readOnly
  modify (·.replaceBits index word.toNat)

/-- The width that holds all of the values. -/
def widthOf (values : List α) : Nat :=
  bitWidth (values.foldl (fun word v => word ||| FixedInt.toWord v) 0)

/-- Stores values from an index on. -/
def setAll (index : Nat) : List α → Step α Unit
  | [] => return
  | v :: vs => do
    set index v
    setAll (index + 1) vs

/-- The array that a step leaves behind, if it does not fail. -/
def Step.run (s : Step α Unit) (a : PackedArray α) : Except StorageError (PackedArray α) :=
  match EStateM.run s a with
  | .ok _ b => .ok b
  | .error e _ => .error e

/-- The values in the smallest width that holds all of them. -/
def ofList (values : List α) : Except StorageError (PackedArray α) := do
  Step.run (setAll 0 values) (← zeros (widthOf values) values.length)

/-- All values. -/
def toList (a : PackedArray α) : List α :=
  (List.range a.length).map fun i => FixedInt.ofNat (a.bits i)

/-! ## The stored form -/

/-- The number of words, the width and the words. -/
def write (a : PackedArray α) (out : Writer) : Except StorageError Writer := do
  let out ← out.putCount a.words.size
  return (out.put (Int32.ofNat a.width)).putAll a.words.toList

/-- Reads an array in place. -/
def read (α : Type) : Reader (PackedArray α) := do
  let count ← Reader.readCount
  let width ← Reader.read Int32
  if h : 1 ≤ width.toInt.toNat ∧ width.toInt.toNat ≤ wordBits then
    let words ← Reader.readArray UInt64 count
    return {
      words := words.toArray
      length := words.toArray.size * wordBits / width.toInt.toNat
      width := width.toInt.toNat
      mapped := true
      width_pos := h.1
      width_le := h.2
      fits := Nat.div_mul_le_self _ _ }
  else throw (.corrupt (.packedWidth width.toInt))

/-- A one-line description. -/
def describe (a : PackedArray α) : String :=
  Text.summary "CompressedArray" [
    ("len", toString a.length), ("width", toString a.width), ("words", toString a.words.size)]

end PackedArray

end Paradigm
