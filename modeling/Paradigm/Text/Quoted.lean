import Paradigm.Text.Quoted.Hidden

/-!
# Quoted text

Strings in descriptions and messages stand between double quotes.  A double quote and a backslash
are marked by a backslash, four control characters have short names, and every other character that
cannot be seen is written by its code point in hexadecimal digits.

## Main definitions

* `Quoted.escape`: the written form of a character
* `quoted`: a string between quotes
-/

namespace Paradigm.Text

namespace Quoted

/-- The lowercase hexadecimal digits of a number, without leading zeros. -/
def hex (n : Nat) : String := String.ofList (Nat.toDigits 16 n)

/-- The written form of a character. -/
def escape (c : Char) : String :=
  if c = '"' then "\\\""
  else if c = '\\' then "\\\\"
  else if c = '\n' then "\\n"
  else if c = '\t' then "\\t"
  else if c = '\r' then "\\r"
  else if c.toNat = 0 then "\\0"
  else if Covered hiddenSpans c then "\\u\x7b" ++ hex c.toNat ++ "\x7d"
  else String.singleton c

end Quoted

/-- A string between quotes. -/
def quoted (s : String) : String :=
  "\"" ++ String.join (s.toList.map Quoted.escape) ++ "\""

/-- Strings between quotes, as a list between brackets. -/
def quotedList (ss : List String) : String :=
  "[" ++ ", ".intercalate (ss.map quoted) ++ "]"

end Paradigm.Text
