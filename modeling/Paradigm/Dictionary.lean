import Paradigm.Error
import Paradigm.Store.Words
import Paradigm.Text.Case

/-!
# Dictionaries

A dictionary answers what is known about the words of a language.  A word that is missing as it is
written is looked up again in lowercase.

## Main definitions

* `Dictionary`: the tables of a dictionary with the locale of its language
* `Dictionary.grammemes?`: the grammemes of a word
* `Dictionary.resolve`: the set of grammemes with given names
* `Dictionary.propertyValues?`: the values of a property of a word
* `Dictionary.patternsForWord`, `PatternStore.patternsWithSuffix`: the patterns of a word and those
  with a suffix
-/

namespace Paradigm

open Text (Case.lowercase Case.isAllLower)

/-- The tables of a dictionary, with the locale of its language. -/
structure Dictionary where
  locale : Locale
  store : WordStore

namespace Dictionary

/-- The dictionary in the bytes of a file. -/
def load (file : View) : Except StorageError Dictionary := do
  let store ← WordStore.load file
  match Locale.parse store.language with
  | .ok locale => return ⟨locale, store⟩
  | .error cause => throw (.corrupt (.badLanguage cause))

/-- The dictionary in a file. -/
def ofFile (file : File) : Except StorageError Dictionary := do
  load (← View.ofFile file)

/-- A one-line description. -/
def describe (d : Dictionary) : String :=
  Text.summary "Dictionary" [
    ("locale", Text.quoted d.locale.display), ("words", toString d.store.size),
    ("grammemes", toString d.store.grammemeCount),
    ("inflections", toString d.store.patterns.isSome)]

/-- The lowercase form under which a word is looked up again. -/
def lowered (d : Dictionary) (word : String) : String := Case.lowercase word d.locale

/-! ## Grammemes -/

/-- The grammemes of a word as it is written, if it has any. -/
def writtenGrammemes? (d : Dictionary) (word : String) : Except StorageError (Option Mask) :=
  Option.filter (· != 0) <$> d.store.wordGrammemes? word

/-- The grammemes of a word as it is written or in lowercase, if it has any. -/
def grammemes? (d : Dictionary) (word : String) : Except StorageError (Option Mask) := do
  match ← d.writtenGrammemes? word with
  | some mask => return some mask
  | none => if d.lowered word = word then return none else d.writtenGrammemes? (d.lowered word)

/-- The grammemes of a word; an unknown word has none. -/
def lookup (d : Dictionary) (word : String) : Except StorageError Mask :=
  (·.getD 0) <$> d.grammemes? word

/-- The word is in the dictionary. -/
def isKnown (d : Dictionary) (word : String) : Except StorageError Bool :=
  Option.isSome <$> d.grammemes? word

/-- The word has all grammemes of a set. -/
def hasAll (d : Dictionary) (word : String) (mask : Mask) : Except StorageError Bool :=
  (·.any (·.includes mask)) <$> d.grammemes? word

/-- The word has a grammeme of a set. -/
def hasAny (d : Dictionary) (word : String) (mask : Mask) : Except StorageError Bool :=
  (·.any (·.meets mask)) <$> d.grammemes? word

/-- The word has the grammeme with a name. -/
def hasGrammeme (d : Dictionary) (word name : String) : Except StorageError Bool :=
  match d.store.grammeme? name with
  | some mask => d.hasAny word mask
  | none => .ok false

/-- The names of the grammemes of a word. -/
def wordGrammemeNames (d : Dictionary) (word : String) : Except StorageError (List String) :=
  d.store.grammemeNames <$> d.lookup word

/-- The set of grammemes with given names, all of which must be known. -/
def resolve (d : Dictionary) (names : List String) : Except Error Mask :=
  match names.filter fun name => (d.store.grammeme? name).isNone with
  | [] => .ok (d.store.knownGrammemes names)
  | unknown => .error (.unknownProperties unknown)

/-- The set of each of the names on its own. -/
def resolveEach (d : Dictionary) (names : List String) : Except Error (List Mask) :=
  names.mapM fun name => d.resolve [name]

/-! ## Properties -/

/-- The values of a property of a word.  They are looked up again in lowercase, unless the word is
in lowercase or is stored with grammemes. -/
def propertyValues? (d : Dictionary) (word property : String) :
    Except StorageError (Option (List String)) := do
  match ← d.store.wordProperty? word property with
  | some values => return some values
  | none =>
    if Case.isAllLower word then return none
    match ← d.store.wordGrammemes? word with
    | some _ => return none
    | none => d.store.wordProperty? (d.lowered word) property

/-! ## Patterns -/

/-- The tables of patterns, which a dictionary need not have. -/
def patternStore (d : Dictionary) : Except Error PatternStore :=
  match d.store.patterns with
  | some patterns => .ok patterns
  | none => .error .missingPatterns

/-- A one-line description of the tables of patterns. -/
def describePatterns (d : Dictionary) (patterns : PatternStore) : String :=
  Text.summary "Inflector" [
    ("language", Text.quoted d.locale.language), ("patterns", toString patterns.size),
    ("suffix_index", toString patterns.hasSuffixIndex)]

/-- The identifiers of the patterns of a word.  They are looked up again in lowercase, unless the
word is in lowercase. -/
def patternIds? (d : Dictionary) (word : String) : Except StorageError (Option (List Nat)) := do
  match d.store.inflectionKey? with
  | none => return none
  | some key =>
    match ← d.store.propertyIds? word key with
    | some ids => return some ids
    | none =>
      if Case.isAllLower word then return none else d.store.propertyIds? (d.lowered word) key

/-- The patterns of a word. -/
def patternsForWord (d : Dictionary) (patterns : PatternStore) (word : String) :
    Except StorageError (List Pattern) := do
  ((← d.patternIds? word).getD []).mapM patterns.pattern

/-- The pattern applies to the part of speech with a name. -/
def coversPartOfSpeech (d : Dictionary) (p : Pattern) (name : String) : Bool :=
  (d.store.grammeme? name).any p.partsOfSpeech.meets

end Dictionary

/-- The patterns with a form that has a suffix, by the index of suffixes. -/
def PatternStore.patternsWithSuffix (patterns : PatternStore) (suffix : String) :
    Except Error (List Pattern) :=
  if patterns.hasSuffixIndex then do
    let ids ← patterns.patternIdsForSuffix suffix
    (ids.mapM patterns.pattern : Except StorageError (List Pattern))
  else .error .missingSuffixIndex

end Paradigm
