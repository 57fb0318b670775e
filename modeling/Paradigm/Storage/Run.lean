/-!
# Runs of numbered values

Lists are stored as a place and a length, and read by asking for one value after the other.

## Main definitions

* `valuesFrom`: the values of a function at consecutive numbers
* `placesFrom`: where lists begin that are stored one after the other

## Main results

* `valuesFrom_eq_mapM`: it is the function mapped over the range of numbers
-/

namespace Paradigm

variable {ε α : Type}

/-- The values of `f` at `count` numbers from `start` on.  No number after a failure is asked for,
so that a length that does not belong to the data fails where the data ends. -/
def valuesFrom (f : Nat → Except ε α) (start : Nat) : Nat → Except ε (List α)
  | 0 => .ok []
  | count + 1 => do
    let a ← f start
    let rest ← valuesFrom f (start + 1) count
    return a :: rest

theorem valuesFrom_eq_mapM (f : Nat → Except ε α) (start count : Nat) :
    valuesFrom f start count = (List.range' start count).mapM f := by
  induction count generalizing start with
  | zero => rfl
  | succ count ih => simp only [valuesFrom, ih, List.range'_succ, List.mapM_cons]

/-- Where each of the lists begins when they lie one after the other from `place` on. -/
def placesFrom (place : Nat) : List (List α) → List Nat
  | [] => []
  | l :: ls => place :: placesFrom (place + l.length) ls

@[simp] theorem length_placesFrom (place : Nat) (ls : List (List α)) :
    (placesFrom place ls).length = ls.length := by
  induction ls generalizing place with
  | nil => rfl
  | cons l ls ih => simp [placesFrom, ih]

end Paradigm
