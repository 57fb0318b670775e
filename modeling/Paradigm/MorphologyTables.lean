import Paradigm.Error
import Paradigm.Text.Json.Parser

/-!
# Morphology tables

The tables of a language say which readings of a word come first, which do not count, and which
forms stand for a word.  They name grammemes of the dictionary that they are used with.

## Main definitions

* `MorphologyTables`: the tables by names
* `MorphologyTables.parse`: the tables in a text
-/

namespace Paradigm

open Text (Json)

/-- The tables of a language. -/
structure MorphologyTables where
  /-- The grammemes of dictionary forms, the most important first. -/
  lemmaAttributes : List String
  /-- Tables of single grammemes, each from the most to the least preferred. -/
  grammemePriorities : List (List String)
  /-- Combinations of grammemes that make a reading uninteresting. -/
  ignoreSets : List (List String)
  deriving DecidableEq, Repr

namespace MorphologyTables

/-- No tables. -/
def empty : MorphologyTables := ⟨[], [], []⟩

/-- Lists of names. -/
def nameLists? (j : Json) : Option (List (List String)) := j.items? >>= List.mapM Json.texts?

/-- The tables that a record describes. -/
def ofJson? (j : Json) : Option MorphologyTables := do
  let [lemmaAttributes, priorities, ignoreSets] ←
    j.fields? ["lemma_attributes", "grammeme_priorities", "ignore_grammeme_sets"] | none
  return {
    lemmaAttributes := ← Json.optional [] Json.texts? lemmaAttributes
    grammemePriorities := ← Json.optional [] nameLists? priorities
    ignoreSets := ← Json.optional [] nameLists? ignoreSets }

/-- The tables in a document. -/
def ofJson (j : Json) : Except Error MorphologyTables :=
  match ofJson? j with
  | some t => .ok t
  | none => .error .json

/-- The tables in a text. -/
def parse (text : String) : Except Error MorphologyTables :=
  match Json.parse? text with
  | some j => ofJson j
  | none => .error .json

end MorphologyTables

end Paradigm
