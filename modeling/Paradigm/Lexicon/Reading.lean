import Paradigm.Error
import Paradigm.Lexicon
import Paradigm.Storage.View
import Paradigm.Text.Json.Parser

/-!
# Reading lexicons

A lexicon is written in JSON.  Its records may leave out fields, which then are empty, and may have
members of other names, which are ignored.

## Main definitions

* `Lexicon.ofJson?`: the lexicon that a document describes
* `Lexicon.parse`: the lexicon in a text
* `Lexicon.ofFile`: the lexicon in a file
-/

namespace Paradigm

open Text (Json)

/-- The properties that an object describes.  Of several members with one name the last counts. -/
def propertiesOfJson? (j : Json) : Option Properties := do
  let members ← j.members?
  members.foldlM (fun p (name, value) => do return p.insert name (← value.texts?)) .empty

namespace Lexicon

/-- A signed number of 32 bits. -/
def frequency? (j : Json) : Option Int32 := do
  let n ← j.integer?
  if Int32.minValue.toInt ≤ n ∧ n ≤ Int32.maxValue.toInt then some (Int32.ofInt n) else none

/-- The form that a record describes. -/
def Form.ofJson? (j : Json) : Option Form := do
  let [suffix, grammemes] ← j.fields? ["suffix", "grammemes"] | none
  return {
    suffix := ← Json.optional "" Json.text? suffix
    grammemes := ← Json.optional [] Json.texts? grammemes }

/-- The pattern that a record describes. -/
def Pattern.ofJson? (j : Json) : Option Pattern := do
  let [id, pos, frequency, lemmaSuffixes, forms] ←
    j.fields? ["id", "pos", "frequency", "lemma_suffixes", "inflections"] | none
  return {
    id := ← Json.optional "" Json.text? id
    pos := ← Json.optional [] Json.texts? pos
    frequency := ← Json.optional 0 frequency? frequency
    lemmaSuffixes := ← Json.optional [] Json.texts? lemmaSuffixes
    forms := ← Json.optional [] (fun f => f.items? >>= List.mapM Form.ofJson?) forms }

/-- The word that a record describes. -/
def Word.ofJson? (j : Json) : Option Word := do
  let [word, grammemes, properties, inflections] ←
    j.fields? ["word", "grammemes", "properties", "inflections"] | none
  return {
    word := ← Json.optional "" Json.text? word
    grammemes := ← Json.optional [] Json.texts? grammemes
    properties := ← Json.optional .empty propertiesOfJson? properties
    inflections := ← Json.optional [] Json.texts? inflections }

/-- The lexicon that a record describes. -/
def ofJson? (j : Json) : Option Lexicon := do
  let [language, words, patterns, suffixIndex] ←
    j.fields? ["language", "words", "patterns", "suffix_index"] | none
  return {
    language := ← Json.optional "" Json.text? language
    words := ← Json.optional [] (fun f => f.items? >>= List.mapM Word.ofJson?) words
    patterns := ← Json.optional [] (fun f => f.items? >>= List.mapM Pattern.ofJson?) patterns
    suffixIndex := ← Json.optional false Json.flag? suffixIndex }

/-- The lexicon in a document. -/
def ofJson (j : Json) : Except Error Lexicon :=
  match ofJson? j with
  | some l => .ok l
  | none => .error .json

/-- The lexicon in a text. -/
def parse (text : String) : Except Error Lexicon :=
  match Json.parse? text with
  | some j => ofJson j
  | none => .error .json

/-- The lexicon in a file, which holds a text. -/
def ofFile (file : File) : Except Error Lexicon := do
  let bytes ← View.ofFile file
  match String.fromUTF8? bytes.bytes with
  | some text => parse text
  | none => throw (.storage .io)

end Lexicon

end Paradigm
