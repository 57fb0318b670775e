import Paradigm.Analysis

/-!
# Inflection of words

A word of the dictionary is brought into the form that is asked for, by way of its preferred reading
or of all its readings in order.  The case of the word is kept where it can be.

## Main definitions

* `Inflector`: an analyzer, with the choice to try all readings
* `Inflector.compareReadings`: the ranking of the readings of a word
* `Inflector.traceOf`: what a trace says of the readings that are tried
* `Inflector.inflectWord`: inflects a word as it is written
* `Inflector.inflect`: inflects a word in any case
-/

namespace Paradigm

open Text (Case.lowercase Case.uppercase Case.capitalize Case.isAllUpper Case.startsUpper)

/-- An analyzer for inflection. -/
structure Inflector where
  analyzer : Analyzer
  /-- Whether all readings of a word are tried in order, or the preferred one alone. -/
  triesAll : Bool
  /-- Whether a trace is kept of the inflection. -/
  traces : Bool

/-- What a word is inflected for, by the names of grammemes. -/
structure Request where
  /-- The grammemes that the form must have. -/
  constraints : List String
  /-- Grammemes that the form should have, the most important first. -/
  optional : List String
  /-- Grammemes of the reading that is meant, the most important first. -/
  disambiguation : List String
  deriving DecidableEq, Repr

namespace Inflector

/-! ## Ranking of readings -/

/-- Compares readings by their forms.  A reading with a form comes before one without; of two with
forms the one with fewer grammemes comes first, and then the one whose pattern has more forms. -/
def compareForms (r s : Reading) : Ordering :=
  match r.inflection, s.inflection with
  | none, none => .eq
  | none, some _ => .gt
  | some _, none => .lt
  | some i, some j =>
    (compare r.grammemes.count s.grammemes.count).then
      (compare j.pattern.record.inflectionCount i.pattern.record.inflectionCount)

/-- Compares readings by the grammemes of the reading that is meant, then by the tables of the
language, then by their forms; the preferred one is less. -/
def compareReadings (a : Analyzer) (disambiguation : List Mask) (r s : Reading) : Ordering :=
  (compare (s.grammemes.priorityScore disambiguation)
    (r.grammemes.priorityScore disambiguation)).then
      ((a.compareGrammemes r.grammemes s.grammemes).then (compareForms r s))

/-- The first reading comes before the second, or has the same rank. -/
def atLeast (a : Analyzer) (disambiguation : List Mask) (r s : Reading) : Bool :=
  (compareReadings a disambiguation r s).isLE

/-- The readings to try, in order. -/
def candidates (f : Inflector) (disambiguation : List Mask) (rs : List Reading) : List Reading :=
  if f.triesAll then rs.mergeSort (atLeast f.analyzer disambiguation)
  else (best? (atLeast f.analyzer disambiguation) rs).toList

/-- What a trace says of the readings to try.  They are described before the first is tried, if all
are tried, and a pattern without a readable name cannot be described. -/
def traceOf (f : Inflector) (rs : List Reading) : Except Error (List String) :=
  if f.triesAll && f.traces then rs.mapM (Reading.describe f.analyzer.dictionary) else .ok []

/-! ## Inflection -/

/-- The form that the first fitting reading gives to a word.  A reading without a form leaves the
word as it is, and an empty form does not count. -/
def firstForm (patterns : PatternStore) (target : Mask) (optional : List Mask) (word : String) :
    List Reading → Except StorageError (Option String)
  | [] => .ok none
  | r :: rest =>
    match r.inflection with
    | none => .ok (some word)
    | some i => do
      let form := (← patterns.reinflect i.pattern i.grammemes target optional word).getD ""
      if form.isEmpty then firstForm patterns target optional word rest else return some form

/-- The form of a word by one of the given readings. -/
def inflectBy (f : Inflector) (patterns : PatternStore) (word : String) (request : Request)
    (rs : List Reading) : Except Error (Option String) := do
  let d := f.analyzer.dictionary
  let disambiguation ← d.resolveEach request.disambiguation
  let candidates := f.candidates disambiguation (f.analyzer.important rs)
  -- a trace that fails comes before names that are unknown
  let _ ← f.traceOf candidates
  let target ← d.resolve request.constraints
  let optional ← d.resolveEach request.optional
  firstForm patterns target optional word candidates

/-- Inflects a word as it is written.  There is no form of a word that is unknown or has no
readings by patterns. -/
def inflectWritten (f : Inflector) (word : String) (request : Request) :
    Except Error (Option String) := do
  let d := f.analyzer.dictionary
  let some mask ← d.grammemes? word | return none
  let some patterns := d.store.patterns | return none
  match ← Analyzer.readingsByAll patterns word mask (← d.patternsForWord patterns word) with
  | [] => return none
  | rs => f.inflectBy patterns word request rs

/-- Inflects a word as it is written, for the given grammemes alone. -/
def inflectWord (f : Inflector) (word : String) (constraints disambiguation : List String) :
    Except Error (Option String) :=
  f.inflectWritten word ⟨constraints, [], disambiguation⟩

/-- Gives a form of the lowercase word the case of the word: capitals for a word in capitals, and a
capital at the start for a word that begins with one. -/
def restoreCase (locale : Locale) (word form : String) : String :=
  if Case.isAllUpper word then Case.uppercase form locale
  else if Case.startsUpper word then Case.capitalize form locale
  else form

/-- Inflects a word as it is written and, if that has no form, in lowercase.  A word in capitals is
tried in lowercase only.  Without constraints the word stays as it is. -/
def inflect (f : Inflector) (word : String) (request : Request) : Except Error (Option String) := do
  if request.constraints.all String.isEmpty then return some word
  -- a word in capitals is looked for in small letters alone
  let written ← if Case.isAllUpper word then pure none else f.inflectWritten word request
  match written with
  | some form => return some form
  | none =>
    let locale := f.analyzer.dictionary.locale
    let form ← f.inflectWritten (Case.lowercase word locale) request
    return form.map (restoreCase locale word)

end Inflector

end Paradigm
