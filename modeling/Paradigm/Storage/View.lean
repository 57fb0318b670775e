import Paradigm.Storage.Error
import Paradigm.Storage.FixedInt
import Paradigm.Text.Summary

/-!
# Views of bytes

A view is a run of dictionary bytes, held in memory or mapped from a file.  Sections of a dictionary
are sub-views.  Offsets and lengths are machine words, and the end of a run must be one as well.

## Main definitions

* `View`: the bytes, and whether they are mapped
* `File`, `View.ofFile`: what lies under a path, and its bytes
* `View.slice`, `View.subView`: a sub-view
* `View.readAt`: one integer at an offset
-/

namespace Paradigm

/-- A run of bytes. -/
structure View where
  bytes : ByteArray
  mapped : Bool

/-- What lies under a path. -/
inductive File where
  /-- Nothing, or something other than a file. -/
  | missing
  /-- A file that cannot be opened or mapped into memory. -/
  | unreadable
  | readable (content : ByteArray)

namespace File

/-- There is a file, whether or not it can be read. -/
def isFile : File → Bool
  | missing => false
  | unreadable => true
  | readable _ => true

end File

namespace View

/-- The bytes of a list, held in memory. -/
def ofList (bytes : List UInt8) : View := ⟨bytes.toByteArray, false⟩

/-- The bytes of a file mapped into memory. -/
def ofFile : File → Except StorageError View
  | .missing => .error .io
  | .unreadable => .error .io
  | .readable content => .ok ⟨content, true⟩

/-- The number of bytes. -/
def size (v : View) : Nat := v.bytes.size

/-- The bytes as a list. -/
def toList (v : View) : List UInt8 := v.bytes.data.toList

/-- The bytes from `start` on, `length` of them at most. -/
def window (v : View) (start length : Nat) : List UInt8 :=
  (v.bytes.extract start (start + length)).data.toList

/-- The bytes from `start` up to `stop`. -/
def slice (v : View) (start stop : Nat) : Except StorageError View :=
  if start ≤ stop ∧ stop ≤ v.size then .ok ⟨v.bytes.extract start stop, v.mapped⟩
  else .error (.tooShort stop v.size)

theorem size_of_slice {v w : View} {start stop : Nat} (h : v.slice start stop = .ok w) :
    w.size = stop - start := by
  unfold slice at h
  split at h
  · rename_i hle
    obtain rfl := Except.ok.inj h
    rw [size, ByteArray.size_extract]
    exact congrArg (· - start) (Nat.min_eq_left hle.2)
  · cases h

/-- The `length` bytes from `start` on as a sub-view, with its size. -/
def subView (v : View) (start length : Nat) : Except StorageError { w : View // w.size = length } :=
  match h : v.slice start (start + length) with
  | .ok w => .ok ⟨w, by rw [size_of_slice h, Nat.add_sub_cancel_left]⟩
  | .error e => .error e

theorem subView_eq_ok {v : View} {start length : Nat} (h : start + length ≤ v.size) :
    ∃ size_eq, v.subView start length =
      .ok ⟨⟨v.bytes.extract start (start + length), v.mapped⟩, size_eq⟩ := by
  have hslice : v.slice start (start + length) =
      .ok ⟨v.bytes.extract start (start + length), v.mapped⟩ := if_pos ⟨Nat.le_add_right _ _, h⟩
  refine ⟨(size_of_slice hslice).trans (Nat.add_sub_cancel_left ..), ?_⟩
  unfold subView
  split
  · rename_i w hw
    obtain rfl := Except.ok.inj (hslice.symm.trans hw)
    rfl
  · rename_i e he
    rw [hslice] at he
    cases he

/-- The integer at an offset, which need not be a multiple of its size.  Every place within a view
is a machine word, so that the end of the integer is out of range only beyond the view. -/
def readAt (α : Type) [FixedInt α] (v : View) (offset : Nat) : Except StorageError α := do
  let size := FixedInt.size α
  if offset + size ≤ v.size then return FixedInt.ofBytes (v.window offset size)
  throw (.tooShort (← Checked.add addressLimit offset size) v.size)

/-- A one-line description. -/
def describe (v : View) : String :=
  Text.summary "ByteView" [("len", toString v.size), ("mapped", toString v.mapped)]

end View

end Paradigm
