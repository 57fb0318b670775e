import Paradigm.Storage.View

/-!
# Arrays of plain integers

A run of integers of one type, one after the other.  It is owned when it was built from values, and
it is read in place when it lies in a dictionary: then every query cuts the bytes that it needs out
of the dictionary, wherever they lie there.

## Main definitions

* `PlainArray`: values in memory, or the bytes in which values lie
* `PlainArray.get`, `PlainArray.range`: one value and a run of values
-/

namespace Paradigm

/-- A run of integers. -/
inductive PlainArray (α : Type) [FixedInt α] where
  /-- Values in memory. -/
  | owned (values : Array α)
  /-- Bytes of a view that hold a whole number of values. -/
  | inPlace (bytes : ByteArray) (whole : FixedInt.size α ∣ bytes.size)

namespace PlainArray

variable {α : Type} [FixedInt α]

instance [DecidableEq α] : DecidableEq (PlainArray α)
  | owned as, owned bs => decidable_of_iff (as = bs) ⟨congrArg owned, owned.inj⟩
  | owned _, inPlace .. => isFalse nofun
  | inPlace .., owned _ => isFalse nofun
  | inPlace as _, inPlace bs _ => decidable_of_iff (as.data = bs.data)
      ⟨fun h => by obtain rfl := ByteArray.ext h; rfl, fun h => congrArg _ (inPlace.inj h)⟩

/-- An owned array. -/
def ofList (values : List α) : PlainArray α := owned values.toArray

/-- Whether the values lie in a dictionary. -/
def mapped : PlainArray α → Bool
  | owned _ => false
  | inPlace .. => true

/-- The number of values. -/
def size : PlainArray α → Nat
  | owned values => values.size
  | inPlace bytes _ => bytes.size / FixedInt.size α

/-- The values as a list. -/
def toList : PlainArray α → List α
  | owned values => values.toList
  | inPlace bytes _ => FixedInt.split α (bytes.size / FixedInt.size α) bytes.data.toList

/-- The value at an index. -/
def get (a : PlainArray α) (index : Nat) : Except StorageError α :=
  match a with
  | owned values =>
    if h : index < values.size then .ok values[index]
    else .error (.indexOutOfBounds index values.size)
  | inPlace bytes whole =>
    if index < (inPlace bytes whole).size then
      View.readAt α ⟨bytes, true⟩ (index * FixedInt.size α)
    else .error (.indexOutOfBounds index (inPlace bytes whole).size)

/-- The values from `start` up to `stop`. -/
def range (a : PlainArray α) (start stop : Nat) : Except StorageError (List α) :=
  if start ≤ stop ∧ stop ≤ a.size then
    match a with
    | owned values => .ok (values.extract start stop).toList
    | inPlace bytes _ =>
      let run := bytes.extract (start * FixedInt.size α) (stop * FixedInt.size α)
      .ok (FixedInt.split α (run.size / FixedInt.size α) run.data.toList)
  else .error (.indexOutOfBounds stop a.size)

/-- A one-line description. -/
def describe (a : PlainArray α) : String :=
  Text.summary "PodArray" [("len", toString a.size), ("mapped", toString a.mapped)]

end PlainArray

end Paradigm
