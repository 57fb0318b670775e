import Paradigm.Text.Quoted

/-!
# Sets of grammemes

A grammeme is one grammatical property, such as a case or a number.  A dictionary registers at most
64 of them, so a set of grammemes is a 64-bit word whose bit `i` stands for the grammeme with
identifier `i`.

## Main definitions

* `Mask`: a set of grammemes
* `Mask.members`: the identifiers in a set, in ascending order
* `Mask.singles`: the sets of one grammeme that make up a set
* `Mask.includes`, `Mask.meets`: inclusion and overlap
* `Mask.priorityScore`: the rank that an ordered list of masks gives to a set
-/

namespace Paradigm

/-- A set of grammemes, one bit for each registered property. -/
abbrev Mask := UInt64

namespace Mask

/-- The number of grammemes that a dictionary can register. -/
def capacity : Nat := 64

/-- The set with the one grammeme `id`, for an identifier below `capacity`. -/
def single (id : Nat) : Mask := 1 <<< UInt64.ofNat id

/-- The set with the one grammeme `id`; none beyond the capacity. -/
def ofIdentifier? (id : Nat) : Option Mask :=
  if id < capacity then some (single id) else none

/-- The identifiers in a set, in ascending order. -/
def members (mask : Mask) : List Nat :=
  (List.range capacity).filter mask.toNat.testBit

/-- The number of grammemes in a set. -/
def count (mask : Mask) : Nat := mask.members.length

/-- The set with the lowest grammeme of a set alone. -/
def lowest (mask : Mask) : Mask := mask &&& -mask

/-- A set without its lowest grammeme. -/
def withoutLowest (mask : Mask) : Mask := mask &&& (mask - 1)

theorem withoutLowest_lt {mask : Mask} (h : mask ≠ 0) :
    mask.withoutLowest.toNat < mask.toNat := by
  have hpos : 0 < mask.toNat := Nat.pos_of_ne_zero fun hzero => h (UInt64.toNat_inj.1 hzero)
  have hsub : (mask - 1).toNat = mask.toNat - 1 :=
    UInt64.toNat_sub_of_le _ _ (UInt64.le_iff_toNat_le.2 hpos)
  rw [withoutLowest, UInt64.toNat_and, hsub]
  exact Nat.lt_of_le_of_lt Nat.and_le_right (Nat.sub_one_lt_of_lt hpos)

/-- The single-grammeme sets that make up a set: the lowest is split off until none is left. -/
def singles (mask : Mask) : List Mask :=
  if mask = 0 then [] else mask.lowest :: mask.withoutLowest.singles
  termination_by mask.toNat
  decreasing_by exact withoutLowest_lt ‹_›

/-- The identifier of a set with exactly one grammeme. -/
def identifier? (mask : Mask) : Option Nat :=
  match mask.members with
  | [id] => some id
  | _ => none

/-- Every grammeme of `subset` is in `mask`. -/
def includes (mask subset : Mask) : Bool := mask &&& subset == subset

/-- The two sets share a grammeme. -/
def meets (a b : Mask) : Bool := a &&& b != 0

/-- The union of a list of sets. -/
def union (masks : List Mask) : Mask := masks.foldl (· ||| ·) 0

/-- A set as a hexadecimal number. -/
def hex (mask : Mask) : String := "0x" ++ Text.Quoted.hex mask.toNat

/-- The rank of a set under an ordered list of masks: a binary number with one digit for each mask,
the first mask giving the highest digit, set when the mask meets the set.  The number is kept in a
signed 64-bit word, so that digits beyond the lowest 64 are lost. -/
def priorityScore (mask : Mask) (ordered : List Mask) : Int64 :=
  ordered.foldl (fun score m => (score <<< 1) ||| (if mask.meets m then 1 else 0)) 0

end Mask

end Paradigm
