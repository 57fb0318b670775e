/-!
# UTF-16 code units

Some orders and lengths of the dictionary format are those of UTF-16: strings are sorted by their
code units, which differs from the order of code points beyond U+FFFF, and their length is counted
in units.

## Main definitions

* `Units.ofChar`, `units`: the code units of a character and of a string
* `Units.decode?`: the characters of well-formed code units
* `Units.length`: the number of code units of a string
-/

namespace Paradigm.Text

namespace Units

/-- The code units of a character: one up to U+FFFF, and a pair of surrogates beyond. -/
def ofChar (c : Char) : List Nat :=
  if c.toNat < 0x10000 then [c.toNat]
  else [0xD800 + (c.toNat - 0x10000) / 0x400, 0xDC00 + (c.toNat - 0x10000) % 0x400]

/-- A unit that opens a pair. -/
def isHigh (unit : Nat) : Bool := 0xD800 ≤ unit && unit < 0xDC00

/-- A unit that closes a pair. -/
def isLow (unit : Nat) : Bool := 0xDC00 ≤ unit && unit < 0xE000

/-- The character that a pair of surrogates stands for. -/
def ofPair (high low : Nat) : Char :=
  Char.ofNat (0x10000 + (high - 0xD800) * 0x400 + (low - 0xDC00))

/-- Reads code units; a surrogate outside a pair is refused. -/
def decode? : List Nat → Option (List Char)
  | [] => some []
  | [u] => if isHigh u || isLow u then none else some [Char.ofNat u]
  | u :: v :: rest =>
    if isHigh u then
      if isLow v then (decode? rest).map (ofPair u v :: ·) else none
    else if isLow u then none
    else (decode? (v :: rest)).map (Char.ofNat u :: ·)

end Units

/-- The UTF-16 code units of a string. -/
def units (s : String) : List Nat := s.toList.flatMap Units.ofChar

/-- The number of UTF-16 code units of a string. -/
def Units.length (s : String) : Nat := (units s).length

end Paradigm.Text
