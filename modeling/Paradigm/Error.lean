import Paradigm.Storage.Error
import Paradigm.Text.Quoted

/-!
# Failures of the engine

Besides the failures of stored data there are those of a lexicon that cannot be compiled, of names
that a dictionary does not know, and of a language without a dictionary.

## Main definitions

* `LexiconFault`: why a lexicon cannot be compiled
* `Error`: all failures, with their wording in `Error.message`
-/

namespace Paradigm

/-- A reason why a lexicon cannot be compiled. -/
inductive LexiconFault where
  | languageLength (language : String) (limit : Nat)
  | language (language : String) (cause : Locale.Error)
  | duplicateWord (word : String)
  | reservedProperty (word property : String)
  | tooManyGrammemes (count limit : Nat)
  | noBit (grammeme : String)
  | duplicatePattern (id : String)
  | tableTooLong
  | valueTooLarge (id : Nat)
  | slotTooWide (what : String) (width limit : Nat)
  deriving DecidableEq, Repr

/-- The wording of a fault. -/
def LexiconFault.message : LexiconFault → String
  | languageLength code limit => s!"language code `{code}` must be 1 to {limit} bytes"
  | language code cause => s!"language code `{code}`: {cause.message}"
  | duplicateWord word => s!"duplicate word `{word}`"
  | reservedProperty word property => s!"word `{word}` sets the reserved `{property}` property"
  | tooManyGrammemes count limit => s!"{count} grammemes, at most {limit} are supported"
  | noBit grammeme => s!"grammeme `{grammeme}` has no bit"
  | duplicatePattern id => s!"duplicate pattern `{id}`"
  | tableTooLong => "inflection table exceeds 2^31 entries"
  | valueTooLarge id => s!"property value id {id} exceeds 31 bits"
  | slotTooWide what width limit => s!"{what} needs {width} bits, at most {limit} fit"

/-- A failure of the engine. -/
inductive Error where
  | storage (cause : StorageError)
  | unsupportedLocale (locale : String)
  | missingSuffixIndex
  | missingPatterns
  | unknownProperties (names : List String)
  | unknownPattern (name : String)
  | invalidLexicon (cause : LexiconFault)
  | json
  deriving DecidableEq, Repr

/-- The wording of a failure. -/
def Error.message : Error → String
  | storage cause => cause.message
  | unsupportedLocale locale => s!"no dictionary available for locale {locale}"
  | missingSuffixIndex => "inflection dictionary is missing suffix to identifiers mappings"
  | missingPatterns => "dictionary has no inflection table"
  | unknownProperties names => "properties are not recognized: " ++ Text.quotedList names
  | unknownPattern name => s!"unknown inflection pattern: {name}"
  | invalidLexicon cause => s!"invalid lexicon: {cause.message}"
  | json => "invalid JSON"

instance : MonadLift (Except StorageError) (Except Error) where
  monadLift r := r.mapError .storage

end Paradigm
