import Paradigm.Storage.PlainArray

/-!
# Reading in order

The sections of a dictionary have no index: each structure is read where the one before it ended.
A cursor is a place in a view, and a reader takes what follows the place and moves it.

## Main definitions

* `Cursor`: a view with a position
* `Reader`: a step that reads at a cursor, or fails
* `Reader.read`, `Reader.readCount`, `Reader.readArray`: integers
* `Reader.skipPadding`: the zeros up to an aligned position
-/

namespace Paradigm

/-- A place in a view. -/
structure Cursor where
  view : View
  position : Nat
  position_le : position ≤ view.size := by omega

namespace Cursor

/-- The start of a view. -/
def start (v : View) : Cursor := ⟨v, 0, Nat.zero_le _⟩

/-- The number of bytes that follow. -/
def remaining (c : Cursor) : Nat := c.view.size - c.position

end Cursor

/-- The number of bytes from a position to the next multiple of `align`. -/
def paddingFor (position align : Nat) : Nat := (align - position % align) % align

/-- The first number that is too great for a number of elements. -/
def countLimit : Nat := 0x80000000

/-- A step that reads at a cursor.  When it fails, the cursor stays where the failing part left
it. -/
abbrev Reader := EStateM StorageError Cursor

namespace Reader

/-- Passes over `length` bytes and tells where they start. -/
def advance (length : Nat) : Reader Nat := fun c =>
  let stop := c.position + length
  if h : stop ≤ c.view.size then .ok c.position { c with position := stop, position_le := h }
  else .error (.tooShort (min stop (addressLimit - 1)) c.view.size) c

/-- Passes on a failure of a check on what was read. -/
def check {α : Type} : Except StorageError α → Reader α
  | .ok a => pure a
  | .error e => throw e

/-- Takes `length` bytes. -/
def take (length : Nat) : Reader (List UInt8) := do
  let start ← advance length
  return (← get).view.window start length

/-- Reads an integer. -/
def read (α : Type) [FixedInt α] : Reader α := do
  return FixedInt.ofBytes (← take (FixedInt.size α))

/-- Reads the number of elements of what follows.  A negative number has been read when it is
refused. -/
def readCount : Reader Nat := do
  let count ← read Int32
  if count < 0 then throw (.corrupt (.negativeCount count.toInt))
  return count.toInt.toNat

/-- Reads `count` integers. -/
def readArray (α : Type) [FixedInt α] (count : Nat) : Reader (List α) := do
  return FixedInt.split α count (← take (count * FixedInt.size α))

/-- Reads a fixed number of integers. -/
def readVector (α : Type) [FixedInt α] (n : Nat) : Reader (Vector α n) := do
  let bytes ← take (n * FixedInt.size α)
  return ⟨(FixedInt.split α n bytes).toArray, by simp⟩

/-- Takes `length` bytes as a sub-view, with its size. -/
def subView (length : Nat) : Reader { w : View // w.size = length } := do
  let start ← advance length
  check ((← get).view.subView start length)

/-- Takes `length` bytes as a sub-view. -/
def readView (length : Nat) : Reader View := do
  return (← subView length).val

/-- Reads `count` integers in place. -/
def readPlainArray (α : Type) [FixedInt α] (count : Nat) : Reader (PlainArray α) := do
  let w ← subView (count * FixedInt.size α)
  return .inPlace w.val.bytes ⟨count, w.property.trans (Nat.mul_comm _ _)⟩

/-- Passes over `length` bytes. -/
def skip (length : Nat) : Reader Unit := do
  let _ ← advance length

/-- Passes over the bytes up to the next multiple of `align`. -/
def skipPadding (align : Nat) : Reader Unit := do
  skip (paddingFor (← get).position align)

/-- Reads from the start of a view. -/
def run {α : Type} (r : Reader α) (v : View) : Except StorageError α :=
  match EStateM.run r (.start v) with
  | .ok a _ => .ok a
  | .error e _ => .error e

end Reader

end Paradigm
