/-!
# Sets of code points

A set of characters is stored as a list of spans of code points.  A span may step over every other
code point, which is how alternating capitals and small letters are kept in one entry.

## Main definitions

* `Span`: an arithmetic progression of code points
* `Covered`: whether a list of spans contains a character
-/

namespace Paradigm.Text

/-- The code points from `first` to `last` at a distance from `first` that `step` divides. -/
structure Span where
  first : Nat
  last : Nat
  step : Nat
  deriving DecidableEq, Repr

/-- Whether a code point lies on the span. -/
def Span.contains (s : Span) (code : Nat) : Bool :=
  s.first ≤ code && code ≤ s.last && (code - s.first) % s.step == 0

/-- Whether one of the spans contains the character. -/
def Covered (spans : List Span) (c : Char) : Bool :=
  spans.any fun s => s.contains c.toNat

end Paradigm.Text
