import Paradigm.Locale
import Paradigm.Text.Case.Letters
import Paradigm.Text.Case.Mapping

/-!
# Letter case of words

The case of a word is described by its shape, and words are put into lower or upper case under the
conventions of a locale.  Turkic languages pair the dotted `i` with `İ` and the dotless `ı` with
`I`; all other languages follow the default mappings, in which a sigma that ends a word has a form
of its own.

## Main definitions

* `Shape`, `detect`: the pattern of capitals in a word
* `lowerOf`, `upperOf`: the case mappings of a character, which may give several characters
* `lowercase`, `uppercase`, `capitalize`: words under the conventions of a locale
* `isAllLower`, `isAllUpper`: words that a case mapping leaves as they are
-/

namespace Paradigm.Text.Case

/-! ## Characters -/

/-- An uppercase letter or a symbol that counts as one. -/
def isUpper (c : Char) : Bool := Covered uppercaseSpans c

/-- A lowercase letter or a symbol that counts as one. -/
def isLower (c : Char) : Bool := Covered lowercaseSpans c

/-- A character with case. -/
def isCased (c : Char) : Bool := isUpper c || isLower c || Covered titlecaseSpans c

/-- A character that does not end a word, such as an accent or an apostrophe. -/
def isIgnorable (c : Char) : Bool := Covered ignorableSpans c

/-- The single-character mapping of a list of shifts; characters outside them map to themselves. -/
def shifted (shifts : List Shift) (c : Char) : Char :=
  match shifts.find? fun s => s.span.contains c.toNat with
  | some s => Char.ofNat (c.toNat + s.distance).toNat
  | none => c

/-- The mapping of a character: its expansion if it has one, and its shift otherwise. -/
def mapped (expansions : List (Nat × List Nat)) (shifts : List Shift) (c : Char) : List Char :=
  match expansions.lookup c.toNat with
  | some codes => codes.map Char.ofNat
  | none => [shifted shifts c]

/-- The characters of the lowercase form of a character. -/
def lowerOf (c : Char) : List Char := mapped lowerExpansions lowerShifts c

/-- The characters of the uppercase form of a character. -/
def upperOf (c : Char) : List Char := mapped upperExpansions upperShifts c

/-! ## The shape of a word -/

/-- The pattern of capitals in a word. -/
inductive Shape where
  /-- No character of the word has case. -/
  | noLetters
  /-- There are small letters only. -/
  | allLower
  /-- The first character is the only capital, and small letters follow. -/
  | firstUpper
  /-- There are capitals after the first character, and small letters. -/
  | mixed
  /-- There are capitals only. -/
  | allUpper
  deriving DecidableEq, Repr

/-- The shape of a word; characters without case do not count. -/
def detect (word : String) : Shape :=
  let chars := word.toList
  if chars.all fun c => !isUpper c && !isLower c then .noLetters
  else if chars.all (!isLower ·) then .allUpper
  else if chars.tail.any isUpper then .mixed
  else if (chars.take 1).any isUpper then .firstUpper
  else .allLower

/-- A word with characters, each of which is its own lowercase form. -/
def isAllLower (word : String) : Bool :=
  !word.isEmpty && word.toList.all fun c => lowerOf c == [c]

/-- A word with characters, each of which is its own uppercase form. -/
def isAllUpper (word : String) : Bool :=
  !word.isEmpty && word.toList.all fun c => upperOf c == [c]

/-- The first character of the word is an uppercase letter. -/
def startsUpper (word : String) : Bool := (word.toList.take 1).any isUpper

/-! ## Conversion -/

/-- The first character that is not ignorable has case. -/
def meetsCased (chars : List Char) : Bool :=
  ((chars.dropWhile isIgnorable).take 1).any isCased

/-- Lowercase under the default conventions, with the characters `before` the ones at hand given in
reverse order.  A capital sigma ends a word when the nearest character before it has case and the
nearest one after it has not, ignorable characters apart. -/
def lowerChars (before : List Char) : List Char → List Char
  | [] => []
  | c :: after =>
    -- the one capital whose small letter depends on its neighbours
    (if c = 'Σ' then
      if meetsCased before && !meetsCased after then ['ς'] else ['σ']
    else lowerOf c) ++ lowerChars (c :: before) after

/-- The lowercase form of a character under the Turkic conventions. -/
def turkicLowerOf (c : Char) : List Char :=
  if c = 'I' then ['ı'] else if c = 'İ' then ['i'] else lowerOf c

/-- The uppercase form of a character under the Turkic conventions. -/
def turkicUpperOf (c : Char) : List Char :=
  if c = 'i' then ['İ'] else if c = 'ı' then ['I'] else upperOf c

/-- Puts a word into lowercase. -/
def lowercase (word : String) (locale : Locale) : String :=
  String.ofList <|
    if locale.hasTurkicCasing then word.toList.flatMap turkicLowerOf else lowerChars [] word.toList

/-- Puts a word into uppercase. -/
def uppercase (word : String) (locale : Locale) : String :=
  String.ofList <|
    word.toList.flatMap (if locale.hasTurkicCasing then turkicUpperOf else upperOf)

/-- Puts the first character of a word into uppercase, unless it is an uppercase letter. -/
def capitalize (word : String) (locale : Locale) : String :=
  match word.toList with
  | [] => word
  | c :: rest =>
    if isUpper c then word else uppercase (String.singleton c) locale ++ String.ofList rest

end Paradigm.Text.Case
