import Paradigm.Dictionary
import Paradigm.MorphologyTables

/-!
# Analysis of words

A word may be read in several ways: its patterns may have several forms that end like the word and
express no more than its grammemes.  The tables of a language rank the readings and rule out some.

## Main definitions

* `Reading`: the grammemes of a word in one of its forms
* `Analyzer`: a dictionary with the tables of its language
* `Analyzer.compareGrammemes`: the ranking of sets of grammemes
* `Analyzer.analyze`: the readings of a word, in the order of the ranking
-/

namespace Paradigm

/-- A reading of a word: its grammemes, and the form that it is in if a pattern tells. -/
structure Reading where
  grammemes : Mask
  inflection : Option Inflection
  deriving DecidableEq, Repr

/-- The form of a reading by its pattern and suffix. -/
def Inflection.summary (d : Dictionary) (i : Inflection) : Except Error String := do
  let patterns ← d.patternStore
  return s!"pattern-id={← patterns.name i.pattern.id}, suffix=\"{i.suffix}\""

/-- A description of a reading. -/
def Reading.describe (d : Dictionary) (r : Reading) : Except Error String := do
  let form ← r.inflection.elim (pure "") (Inflection.summary d)
  let names := ",".intercalate (d.store.grammemeNames r.grammemes)
  return s!"Inflection[{form}], grammemes[{names}]"

/-- A dictionary with the tables of its language. -/
structure Analyzer where
  dictionary : Dictionary
  /-- The grammemes of dictionary forms, the most important first. -/
  lemmaAttributes : List Mask
  /-- Tables that rank sets of grammemes by the first entry that they include. -/
  priorities : List (List Mask)
  /-- Sets that rule out the readings that include them. -/
  ignoreSets : List Mask
  ignoreSets_ne_zero : ∀ s ∈ ignoreSets, s ≠ 0

namespace Analyzer

/-! ## Tables -/

/-- The analyzer with given tables.  An empty set that rules out readings would rule out all, and is
dropped. -/
def ofMasks (d : Dictionary) (lemmaAttributes : List Mask) (priorities : List (List Mask))
    (ignoreSets : List Mask) : Analyzer :=
  { dictionary := d, lemmaAttributes, priorities
    ignoreSets := ignoreSets.filter (· ≠ 0)
    ignoreSets_ne_zero := by simp }

/-- The analyzer with tables by names, all of which must be known to the dictionary. -/
def ofTables (d : Dictionary) (t : MorphologyTables) : Except Error Analyzer := do
  let lemmaAttributes ← d.resolveEach t.lemmaAttributes
  let priorities ← t.grammemePriorities.mapM d.resolveEach
  return ofMasks d lemmaAttributes priorities (← t.ignoreSets.mapM d.resolve)

/-! ## Ranking -/

/-- The rank of a set in a table: the number of the first entry that it includes, or of the end of
the table. -/
def rankIn (table : List Mask) (mask : Mask) : Nat := table.findIdx mask.includes

/-- Compares sets by their ranks in the first of the tables where these differ. -/
def compareBy : List (List Mask) → Mask → Mask → Ordering
  | [], _, _ => .eq
  | table :: rest, x, y => (compare (rankIn table x) (rankIn table y)).then (compareBy rest x y)

/-- Compares sets by the tables of the language; the preferred one is less. -/
def compareGrammemes (a : Analyzer) (x y : Mask) : Ordering := compareBy a.priorities x y

/-- No set rules out the grammemes. -/
def isImportant (a : Analyzer) (mask : Mask) : Bool := !a.ignoreSets.any mask.includes

/-- The readings that are not ruled out. -/
def important (a : Analyzer) (rs : List Reading) : List Reading :=
  rs.filter fun r => a.isImportant r.grammemes

/-! ## Readings -/

/-- The readings that a pattern gives to a word.  A pattern without forms gives its parts of
speech. -/
def readingsBy (patterns : PatternStore) (word : String) (mask : Mask) (p : Pattern) :
    Except StorageError (List Reading) := do
  if p.record.inflectionCount = 0 then return [⟨p.partsOfSpeech, none⟩]
  let forms ← patterns.surfaceForms p word mask
  return forms.map fun i => ⟨i.grammemes ||| p.partsOfSpeech, some i⟩

/-- The readings that patterns give to a word. -/
def readingsByAll (patterns : PatternStore) (word : String) (mask : Mask) (ps : List Pattern) :
    Except StorageError (List Reading) :=
  List.flatten <$> ps.mapM (readingsBy patterns word mask)

/-- The readings that its patterns give to a word. -/
def patternReadings (a : Analyzer) (word : String) (mask : Mask) :
    Except StorageError (List Reading) := do
  match a.dictionary.store.patterns with
  | none => return []
  | some patterns => readingsByAll patterns word mask (← a.dictionary.patternsForWord patterns word)

/-- All readings of a word; an unknown word has none, and one without patterns has its grammemes. -/
def readings (a : Analyzer) (word : String) : Except StorageError (List Reading) := do
  match ← a.dictionary.grammemes? word with
  | none => return []
  | some mask =>
    match ← a.patternReadings word mask with
    | [] => return [⟨mask, none⟩]
    | rs => return rs

/-- All sets of grammemes of a word; an unknown word has none, and a word whose patterns give none
has its own. -/
def grammemeSets (a : Analyzer) (word : String) : Except StorageError (List Mask) := do
  match ← a.dictionary.grammemes? word with
  | none => return []
  | some mask =>
    let sets := (← a.patternReadings word mask).map Reading.grammemes
    return if sets.isEmpty then [mask] else sets

/-- The readings of a word that are not ruled out, the most preferred first. -/
def analyze (a : Analyzer) (word : String) : Except StorageError (List Reading) := do
  return (a.important (← a.readings word)).mergeSort fun r s =>
    (a.compareGrammemes r.grammemes s.grammemes).isLE

end Analyzer

end Paradigm
