/-!
# The best elements of a list

Selections among the forms of a word have one shape: of the candidates, take the first that no other
candidate beats, or all of these in their order.  Both are made in one pass.

## Main definitions

* `best?`: the first of the best elements
* `keepBest`: the first of the best elements that were met so far
* `Leaders`: all of the best elements that were met so far
-/

namespace Paradigm

variable {α : Type}

/-- The first element that is at least as good as all others, for a relation that compares any two
elements. -/
def best? (atLeast : α → α → Bool) : List α → Option α
  | [] => none
  | x :: xs => some (xs.foldl (fun b y => if atLeast b y then b else y) x)

/-- The first of the best elements when one more is met. -/
def keepBest (atLeast : α → α → Bool) (best : Option α) (x : α) : Option α :=
  match best with
  | none => some x
  | some b => some (if atLeast b x then b else x)

/-- The greatest key that was met so far, and the elements that have it, in their order. -/
structure Leaders (κ α : Type) where
  key? : Option κ
  elements : Array α

namespace Leaders

variable {κ : Type}

/-- No element was met. -/
def start : Leaders κ α := ⟨none, #[]⟩

/-- An element is met.  It is passed over if its key is lower than the greatest so far, and joins
the leaders if it has this key.  An element with a greater key takes the place of them all. -/
def meet [Ord κ] (key : α → κ) (found : Leaders κ α) (x : α) : Leaders κ α :=
  match found.key?.map (compare (key x)) with
  | some .lt => found
  | some .eq => { found with elements := found.elements.push x }
  | _ => ⟨some (key x), #[x]⟩

end Leaders

end Paradigm
