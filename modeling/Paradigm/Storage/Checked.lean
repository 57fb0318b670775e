/-!
# Checked numbers

An index must be one of the row that it is used for, a difference must not be below zero, a sum must
fit its type, and a text must be cut between two characters.  A computation that keeps to this has a
value; one that does not fails at the first number that is out of range.

## Main definitions

* `addressLimit`, `halfLimit`: the first numbers that are too great for 64 and for 32 bits
* `RangeFault`: the numbers that are out of range
* `Checked`: a computation that fails at such a number
* `Checked.element`, `Checked.replace`: an element of a row, and a row with another one
* `Checked.sub`, `Checked.add`: a difference and a sum
* `Checked.firstBytes`: the text before an offset in bytes
-/

namespace Paradigm

/-- The first number that a machine word cannot hold. -/
def addressLimit : Nat := 0x10000000000000000

/-- The first number that half a machine word cannot hold. -/
def halfLimit : Nat := 0x100000000

/-- A number that is out of range where it is used. -/
inductive RangeFault where
  | index (index length : Nat)
  | difference (minuend subtrahend : Nat)
  | sum (augend addend : Nat)
  | shift (places : Nat)
  | boundary (offset : Nat)
  deriving DecidableEq, Repr

/-- A computation that fails where a number is out of range. -/
abbrev Checked := Except RangeFault

namespace Checked

variable {α : Type}

/-- The element at an index. -/
def element (xs : Array α) (index : Nat) : Checked α :=
  match xs[index]? with
  | some x => .ok x
  | none => .error (.index index xs.size)

/-- The row with another element at an index. -/
def replace (xs : Array α) (index : Nat) (x : α) : Checked (Array α) :=
  if index < xs.size then .ok (xs.setIfInBounds index x) else .error (.index index xs.size)

/-- The difference of two numbers. -/
def sub (m n : Nat) : Checked Nat :=
  if n ≤ m then .ok (m - n) else .error (.difference m n)

/-- The sum of two numbers, which must be below the limit of its type. -/
def add (limit m n : Nat) : Checked Nat :=
  if m + n < limit then .ok (m + n) else .error (.sum m n)

/-- The characters that take the first `n` bytes of a text, if these end with a character. -/
def charsOfBytes? : Nat → List Char → Option (List Char)
  | 0, _ => some []
  | _ + 1, [] => none
  | n + 1, c :: cs =>
    if c.utf8Size ≤ n + 1 then (charsOfBytes? (n + 1 - c.utf8Size) cs).map (c :: ·) else none

/-- The text before an offset in bytes. -/
def firstBytes (s : String) (offset : Nat) : Checked String :=
  match charsOfBytes? offset s.toList with
  | some cs => .ok (String.ofList cs)
  | none => .error (.boundary offset)

/-- The value of a computation, if all numbers are in range. -/
def getD (x : Checked α) (fallback : α) : α :=
  match x with
  | .ok a => a
  | .error _ => fallback

theorem element_eq_ok {xs : Array α} {index : Nat} {x : α} :
    element xs index = .ok x ↔ xs[index]? = some x := by
  unfold element
  split <;> simp_all

theorem replace_eq_ok {xs : Array α} {index : Nat} (h : index < xs.size) (x : α) :
    replace xs index x = .ok (xs.setIfInBounds index x) := if_pos h

theorem sub_eq_ok {m n : Nat} (h : n ≤ m) : sub m n = .ok (m - n) := if_pos h

theorem add_eq_ok {limit m n : Nat} (h : m + n < limit) : add limit m n = .ok (m + n) := if_pos h

theorem add_eq_error {limit m n : Nat} (h : limit ≤ m + n) : add limit m n = .error (.sum m n) :=
  if_neg (Nat.not_lt.2 h)

end Checked

end Paradigm
