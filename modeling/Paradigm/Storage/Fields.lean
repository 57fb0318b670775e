/-!
# The fields of small records

Records of a few fields are put together from their fields and taken apart into tuples.

## Main definitions

* `twoFields`, `threeFields`, `fourFields`: the vector with given elements
* `pairOf`, `tripleOf`, `quadrupleOf`, `quintupleOf`: the elements of a vector as a tuple

## Main results

* `pairOf_twoFields` and its companions: taking apart undoes putting together
-/

namespace Paradigm

variable {α : Type}

/-- The vector with two given elements. -/
def twoFields (a b : α) : Vector α 2 := #v[a, b]

/-- The vector with three given elements. -/
def threeFields (a b c : α) : Vector α 3 := #v[a, b, c]

/-- The vector with four given elements. -/
def fourFields (a b c d : α) : Vector α 4 := #v[a, b, c, d]

/-- The elements of a vector of two. -/
def pairOf (v : Vector α 2) : α × α := (v[0], v[1])

/-- The elements of a vector of three. -/
def tripleOf (v : Vector α 3) : α × α × α := (v[0], v[1], v[2])

/-- The elements of a vector of four. -/
def quadrupleOf (v : Vector α 4) : α × α × α × α := (v[0], v[1], v[2], v[3])

/-- The elements of a vector of five. -/
def quintupleOf (v : Vector α 5) : α × α × α × α × α := (v[0], v[1], v[2], v[3], v[4])

@[simp] theorem pairOf_twoFields (a b : α) : pairOf (twoFields a b) = (a, b) := rfl

@[simp] theorem tripleOf_threeFields (a b c : α) : tripleOf (threeFields a b c) = (a, b, c) := rfl

@[simp] theorem quadrupleOf_fourFields (a b c d : α) :
    quadrupleOf (fourFields a b c d) = (a, b, c, d) := rfl

end Paradigm
