import Paradigm.NameMap

/-!
# Lexicons

A lexicon describes the vocabulary of a language: its words with their grammemes and properties, and
the patterns by which they inflect.  It is the source that a dictionary is compiled from.

## Main definitions

* `Lexicon`: the description of a language
* `Lexicon.Word`, `Lexicon.Pattern`, `Lexicon.Form`: its parts
* `Properties`: the properties of a word
* `Lexicon.grammemeNames`: the names of all grammemes that occur
-/

namespace Paradigm

/-- The properties of a word: lists of values by name. -/
abbrev Properties := NameMap (List String)

namespace Lexicon

/-- A form of a pattern: the suffix that ends it and what it expresses. -/
structure Form where
  suffix : String
  grammemes : List String
  deriving DecidableEq, Repr

/-- A pattern of inflection, which words that inflect alike share. -/
structure Pattern where
  id : String
  /-- The parts of speech that the pattern applies to. -/
  pos : List String
  frequency : Int32
  /-- The suffixes of dictionary forms. -/
  lemmaSuffixes : List String
  forms : List Form
  deriving DecidableEq

/-- A word of a dictionary. -/
structure Word where
  word : String
  grammemes : List String
  properties : Properties
  /-- The identifiers of the patterns of the word, the most likely first. -/
  inflections : List String
  deriving DecidableEq

end Lexicon

/-- The description of a language. -/
structure Lexicon where
  language : String
  words : List Lexicon.Word
  patterns : List Lexicon.Pattern
  /-- Whether a dictionary shall list the patterns of each suffix. -/
  suffixIndex : Bool
  deriving DecidableEq

namespace Lexicon

/-- The grammemes of a pattern in source order, those of its parts of speech first. -/
def Pattern.grammemeNames (p : Pattern) : List String := p.pos ++ p.forms.flatMap Form.grammemes

/-- The grammemes of a lexicon in source order, those of words first. -/
def grammemeNames (l : Lexicon) : List String :=
  l.words.flatMap Word.grammemes ++ l.patterns.flatMap Pattern.grammemeNames

end Lexicon

end Paradigm
