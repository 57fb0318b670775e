/-!
# Locale identifiers

A locale identifier is a language subtag followed by further subtags, separated by hyphens or
underscores.  Only the language selects a dictionary; the other subtags are kept for display.

## Main definitions

* `Locale.parse`: reads an identifier
* `Locale.display`: writes it with underscores
* `Locale.fallbackLanguage`: the language whose dictionary stands in for this one's
-/

namespace Paradigm

/-- An identifier such as `en`, `en-US` or `pt_BR`, split into its subtags. -/
structure Locale where
  language : String
  rest : List String
  deriving DecidableEq, Repr

namespace Locale

/-- Why a tag is no locale identifier. -/
inductive Error where
  | empty
  | invalidLanguage (subtag : String)
  deriving DecidableEq, Repr

/-- The wording of an error. -/
def Error.message : Error → String
  | empty => "empty locale identifier"
  | invalidLanguage subtag => "invalid language subtag: " ++ subtag

/-- The characters that separate subtags. -/
def isSeparator (c : Char) : Bool := c == '-' || c == '_'

/-- The non-empty pieces of a tag between separators. -/
def subtags (tag : String) : List String :=
  ((tag.toList.splitOnP isSeparator).filter (!·.isEmpty)).map String.ofList

/-- A language subtag has two to four ASCII letters. -/
def isLanguage (subtag : String) : Bool :=
  2 ≤ subtag.length && subtag.length ≤ 4 && subtag.toList.all Char.isAlpha

/-- Reads an identifier: the first subtag is the language, put into lowercase, and the others are
kept as they are. -/
def parse (tag : String) : Except Error Locale :=
  match subtags tag with
  | [] => .error .empty
  | language :: rest =>
    if isLanguage language then
      .ok ⟨String.ofList (language.toList.map Char.toLower), rest⟩
    else
      .error (.invalidLanguage language)

/-- The subtags joined by underscores. -/
def display (l : Locale) : String := "_".intercalate (l.language :: l.rest)

/-- The locale with the language alone. -/
def generic (l : Locale) : Locale := ⟨l.language, []⟩

/-- The language whose dictionary serves this locale when there is none of its own: Cantonese and
Shanghainese share the Chinese dictionary. -/
def fallbackLanguage (l : Locale) : Option String :=
  if l.language = "yue" ∨ l.language = "wuu" then some "zh" else none

/-- The languages that pair the dotted and the dotless i across case. -/
def hasTurkicCasing (l : Locale) : Bool := l.language == "tr" || l.language == "az"

end Locale

end Paradigm
