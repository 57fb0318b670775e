import Paradigm.Best
import Paradigm.Grammeme
import Paradigm.Storage.Checked
import Paradigm.Storage.View
import Paradigm.Text.Quoted
import Paradigm.Text.Units

/-!
# Patterns of inflection

A pattern lists the forms of the words that inflect alike: for each form the suffix that ends it and
the grammemes that it expresses.  A word is brought into another form by exchanging its suffix.

Which form a word is in, and which form is wanted, is not always clear from the grammemes; the
selections here say which forms come into question and which of them are preferred.  Lengths of
suffixes are counted in UTF-16 code units.

## Main definitions

* `Pattern`, `Inflection`: a pattern and one of its forms
* `Inflection.ofSurface`: the forms that a word may be in
* `Inflection.bestLemmas`, `Inflection.lemmaAmong`: the form that stands for the word
* `Inflection.Search`: one pass through the forms for the suffix to cut off and the form to take
* `Inflection.tryReinflect`, `Inflection.reinflect`: a word brought into another form
-/

namespace Paradigm

/-! ## Patterns and their forms -/

/-- The stored head of a pattern, and the place where it is stored.  The suffixes of dictionary
forms follow the head, and the forms follow those. -/
structure PatternRecord where
  start : Nat
  inflectionCount : Nat
  lemmaCount : Nat
  posIndex : Nat
  frequencyIndex : Nat
  deriving DecidableEq, Repr

namespace PatternRecord

/-- The place of the first suffix of a dictionary form. -/
def lemmaOffset (r : PatternRecord) : Checked Nat := Checked.add addressLimit r.start 1

/-- The place of the first form. -/
def formsOffset (r : PatternRecord) : Checked Nat := do
  Checked.add addressLimit (← r.lemmaOffset) r.lemmaCount

end PatternRecord

/-- A pattern, by its identifier in a dictionary. -/
structure Pattern where
  id : Nat
  record : PatternRecord
  partsOfSpeech : Mask
  deriving DecidableEq, Repr

/-- A form of a pattern. -/
structure Inflection where
  pattern : Pattern
  suffixId : Nat
  suffix : String
  grammemes : Mask
  deriving DecidableEq, Repr

/-- A one-line description. -/
def Pattern.describe (p : Pattern) : String :=
  Text.summary "InflectionPattern" [
    ("id", toString p.id), ("parts_of_speech", p.partsOfSpeech.hex),
    ("num_inflections", toString p.record.inflectionCount),
    ("lemma_suffixes_len", toString p.record.lemmaCount)]

/-- The number of the first of the masks that meets the parts of speech; the number of masks if none
does. -/
def Pattern.firstPartOfSpeech (p : Pattern) (masks : List Mask) : Nat :=
  masks.findIdx p.partsOfSpeech.meets

namespace Inflection

/-- A one-line description. -/
def describe (i : Inflection) : String :=
  Text.summary "Inflection" [
    ("pattern", toString i.pattern.id), ("suffix", Text.quoted i.suffix),
    ("grammemes", i.grammemes.hex)]

/-- The length of the suffix. -/
def suffixLength (i : Inflection) : Nat := Text.Units.length i.suffix

/-- A word ends in the suffix. -/
def endsWord (i : Inflection) (word : String) : Bool := i.suffix.toList.isSuffixOf word.toList

/-- The forms that are compatible with a mask: those whose grammemes the mask includes, or else
those whose grammemes include the mask. -/
def constrain (mask : Mask) (covering : Bool) (forms : List Inflection) : List Inflection :=
  forms.filter fun i => if covering then mask.includes i.grammemes else i.grammemes.includes mask

/-- The forms that have one of the given suffixes. -/
def withSuffixIds (suffixIds : List Nat) (forms : List Inflection) : List Inflection :=
  forms.filter fun i => suffixIds.contains i.suffixId

/-! ## The form that a word is in -/

/-- A form is met in the search for those that a word with the given grammemes may be in.  It comes
into question if the word has all its grammemes and ends in its suffix. -/
def meetSurface (word : String) (mask : Mask) (found : Leaders Nat Inflection) (i : Inflection) :
    Leaders Nat Inflection :=
  if mask.includes i.grammemes && i.endsWord word then found.meet suffixLength i else found

/-- The forms that a word with the given grammemes may be in: of those that come into question the
ones with the longest suffix. -/
def ofSurface (word : String) (mask : Mask) (forms : List Inflection) : List Inflection :=
  (forms.foldl (meetSurface word mask) .start).elements.toList

/-! ## The form that stands for a word -/

/-- The score of a form among the candidates for the lemma: first by the attributes of lemmas, then
by the number of requested grammemes, then by having few grammemes. -/
def lemmaScore (requested : Mask) (attributes : List Mask) (i : Inflection) : List Int :=
  [(i.grammemes.priorityScore attributes).toInt, (i.grammemes &&& requested).count,
    -i.grammemes.count]

/-- The forms of the highest score for the lemma.  Of two scores the first numbers that differ
count. -/
def bestLemmas (requested : Mask) (attributes : List Mask) (forms : List Inflection) :
    List Inflection :=
  (forms.foldl (Leaders.meet (lemmaScore requested attributes)) .start).elements.toList

/-- Goes through candidates for the lemma with the first of the shortest suffixes before them.  A
candidate with one of the given suffixes is taken at once, and without any the shortest is taken. -/
def lemmaFrom (suffixes : List String) (shortest : Inflection) : List Inflection → Inflection
  | [] => shortest
  | i :: rest =>
    let shortest := if i.suffixLength < shortest.suffixLength then i else shortest
    if suffixes.contains i.suffix then i else lemmaFrom suffixes shortest rest

/-- Chooses among forms of equal score: the first with a suffix of dictionary forms, which is the
empty one if the pattern names none, or else the first with the shortest suffix. -/
def lemmaAmong (lemmaSuffixes : List String) : List Inflection → Option Inflection
  | [] => none
  | i :: rest =>
    let suffixes := if lemmaSuffixes.isEmpty then [""] else lemmaSuffixes
    some (lemmaFrom suffixes i (i :: rest))

/-! ## From one form to another -/

/-- Prefers higher scores.  These are lists of numbers, of which the first that differ count. -/
def atLeast (score : Inflection → List Int) (i j : Inflection) : Bool :=
  (compare (score j) (score i)).isLE

/-- The score of a form among those with the wanted grammemes: first by the optional grammemes, then
by the number of grammemes that the word has already, then by having few others. -/
def targetScore (source target : Mask) (optional : List Mask) (i : Inflection) : List Int :=
  [(i.grammemes.priorityScore optional).toInt, (i.grammemes &&& source).count,
    (target.count : Int) - i.grammemes.count]

/-- What is known of a word after some forms were met: the longest suffix that is to be cut off, by
its length in code units and in bytes, and the form to bring the word into. -/
structure Search where
  cutLength : Nat
  cutBytes : Nat
  form? : Option Inflection

namespace Search

/-- No form was met. -/
def start : Search := ⟨0, 0, none⟩

/-- A form that a word with the grammemes `source` may be in is met.  Its suffix is cut off if it
ends the word and is longer than those that were met.  A word without grammemes may be in any
form. -/
def meetSource (source : Mask) (word : String) (found : Search) (i : Inflection) : Search :=
  if (source == 0 || source.includes i.grammemes) && decide (found.cutLength < i.suffixLength) &&
      i.endsWord word then
    { found with cutLength := i.suffixLength, cutBytes := i.suffix.utf8ByteSize }
  else found

/-- A form is met into which the word can be brought if the form has the wanted grammemes. -/
def meetTarget (source target : Mask) (optional : List Mask) (found : Search) (i : Inflection) :
    Search :=
  if i.grammemes.includes target then
    { found with form? := keepBest (atLeast (targetScore source target optional)) found.form? i }
  else found

/-- A form is met. -/
def meet (source target : Mask) (optional : List Mask) (word : String) (found : Search)
    (i : Inflection) : Search :=
  (found.meetSource source word i).meetTarget source target optional i

end Search

/-- A word with the grammemes `source`, brought into a form with the grammemes `target`.  A word
that has them all stays as it is. -/
def tryReinflect (source target : Mask) (optional : List Mask) (word : String)
    (forms : List Inflection) : Checked (Option String) := do
  if target = 0 ∨ source.includes target then return some word
  let found := forms.foldl (Search.meet source target optional word) .start
  match found.form? with
  | none => return none
  | some i =>
    let stem ← Checked.firstBytes word (← Checked.sub word.utf8ByteSize found.cutBytes)
    return some (stem ++ i.suffix)

/-- A word with the grammemes `source`, brought into a form with the grammemes `target`. -/
def reinflect (source target : Mask) (optional : List Mask) (word : String)
    (forms : List Inflection) : Option String :=
  (tryReinflect source target optional word forms).getD none

end Inflection

end Paradigm
