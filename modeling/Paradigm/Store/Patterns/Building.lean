import Paradigm.Error
import Paradigm.Lexicon
import Paradigm.Store.Patterns
import Paradigm.Table.SortedTable

/-!
# Building the tables of patterns

The patterns of a lexicon are stored in the order of the lexicon.  Their sets of grammemes and their
frequencies are shared, and the records are as narrow as the greatest of their fields allows.

## Main definitions

* `SortedTable.mask`: the set of grammemes with given names
* `ResolvedPattern`: a pattern of a lexicon whose grammemes are resolved
* `PatternStore.Scheme`: what the slots of patterns refer to, and how they are laid out
* `PatternStore.ofPatterns`: the tables of a list of patterns
* `SuffixIndex.ofPatterns`: the index of patterns by the suffixes of their forms
-/

namespace Paradigm

/-- The set with the grammeme of a name, which must have a bit. -/
def SortedTable.bit (t : SortedTable) (name : String) : Except Error Mask := do
  match Mask.ofIdentifier? (← StringTable.require t name) with
  | some bit => return bit
  | none => throw (.invalidLexicon (.noBit name))

/-- The set of grammemes with given names. -/
def SortedTable.mask (t : SortedTable) (names : List String) : Except Error Mask :=
  Mask.union <$> names.mapM t.bit

/-- The number of bits of a slot of property maps and of the index by suffixes. -/
def maxSlotWidth : Nat := 32

/-- Refuses records that are wider than a slot. -/
def checkSlotWidth (what : String) {n : Nat} (layout : RecordLayout n) : Except Error Unit := do
  let width ← layout.totalWidth
  if maxSlotWidth < width then throw (.invalidLexicon (.slotTooWide what width maxSlotWidth))

/-- The greatest of numbers, which is zero if there are none. -/
def largest (numbers : List Nat) : UInt64 := .ofNat (numbers.foldl max 0)

/-- Records in slots of 32 bits. -/
def encodeSlots {n : Nat} (layout : RecordLayout n) (records : List (Vector UInt64 n)) :
    Except StorageError (List Int32) := do
  return (← records.mapM layout.encode).map fun raw => raw.toUInt32.toInt32

/-- The first string that occurs before its place, or among those `seen` before. -/
def firstRepeated? (seen : List String) : List String → Option String
  | [] => none
  | s :: rest => if seen.contains s then some s else firstRepeated? (s :: seen) rest

/-! ## Patterns with resolved grammemes -/

/-- A pattern of a lexicon whose grammemes are resolved to masks. -/
structure ResolvedPattern where
  name : String
  partsOfSpeech : Mask
  frequency : Int32
  lemmaSuffixes : List String
  forms : List (String × Mask)

namespace ResolvedPattern

/-- Resolves the grammemes of a pattern. -/
def ofPattern (grammemes : SortedTable) (p : Lexicon.Pattern) :
    Except Error ResolvedPattern := do
  return {
    name := p.id
    partsOfSpeech := ← grammemes.mask p.pos
    frequency := p.frequency
    lemmaSuffixes := p.lemmaSuffixes
    forms := ← p.forms.mapM fun f => return (f.suffix, ← grammemes.mask f.grammemes) }

/-- Resolves the grammemes of patterns. -/
def ofPatterns (grammemes : SortedTable) (patterns : List Lexicon.Pattern) :
    Except Error (List ResolvedPattern) :=
  patterns.mapM (ofPattern grammemes)

/-- The suffixes of the forms. -/
def formSuffixes (p : ResolvedPattern) : List String := p.forms.map Prod.fst

/-- The sets of grammemes of the forms. -/
def formSets (p : ResolvedPattern) : List Mask := p.forms.map Prod.snd

end ResolvedPattern

/-! ## Heads and forms -/

namespace PatternStore

/-- The distinct sets of grammemes of patterns, those of parts of speech first. -/
def setsOf (ps : List ResolvedPattern) : List Mask :=
  (ps.map ResolvedPattern.partsOfSpeech ++ ps.flatMap ResolvedPattern.formSets).eraseDups

/-- The distinct frequencies of patterns, in order. -/
def frequenciesOf (ps : List ResolvedPattern) : List Int32 :=
  ((ps.map ResolvedPattern.frequency).mergeSort fun a b => a ≤ b).eraseReps

/-- The suffixes of dictionary forms and of all forms. -/
def suffixesOf (ps : List ResolvedPattern) : List String :=
  ps.flatMap fun p => p.lemmaSuffixes ++ p.formSuffixes

/-- What the slots of patterns refer to, and the layouts of their records. -/
structure Scheme where
  sets : List Mask
  frequencies : List Int32
  suffixes : TrieTable
  headLayout : RecordLayout 4
  formLayout : RecordLayout 2

namespace Scheme

/-- The layout of heads, just wide enough for the longest lists and the greatest numbers. -/
def headLayoutFor (sets : List Mask) (frequencies : List Int32) (ps : List ResolvedPattern) :
    Except StorageError (RecordLayout 4) :=
  RecordLayout.fitting headFields <| fourFields
    (largest (ps.map (·.forms.length))) (largest (ps.map (·.lemmaSuffixes.length)))
    (largest (ps.map fun p => sets.idxOf p.partsOfSpeech))
    (largest (ps.map fun p => frequencies.idxOf p.frequency))

/-- The layout of forms, just wide enough for the greatest number of a set and for every suffix of
the table. -/
def formLayoutFor (sets : List Mask) (suffixes : TrieTable) (ps : List ResolvedPattern) :
    Except StorageError (RecordLayout 2) :=
  RecordLayout.fitting formFields <| twoFields
    (largest ((ps.flatMap ResolvedPattern.formSets).map sets.idxOf)) (.ofNat (suffixes.size - 1))

/-- What the slots of given patterns refer to. -/
def ofPatterns (ps : List ResolvedPattern) : Except StorageError Scheme := do
  let sets := setsOf ps
  let frequencies := frequenciesOf ps
  let suffixes ← TrieTable.ofList (suffixesOf ps)
  let headLayout ← headLayoutFor sets frequencies ps
  let formLayout ← formLayoutFor sets suffixes ps
  return { sets, frequencies, suffixes, headLayout, formLayout }

/-- The fields of the head of a pattern. -/
def headRecord (c : Scheme) (p : ResolvedPattern) : Vector UInt64 4 :=
  fourFields (.ofNat p.forms.length) (.ofNat p.lemmaSuffixes.length)
    (.ofNat (c.sets.idxOf p.partsOfSpeech)) (.ofNat (c.frequencies.idxOf p.frequency))

/-- The slot of a suffix of dictionary forms. -/
def lemmaSlot (c : Scheme) (suffix : String) : Except StorageError Int64 :=
  Int64.ofNat <$> StringTable.require c.suffixes suffix

/-- The fields of a form whose suffix has an identifier. -/
def formRecord (c : Scheme) (set : Mask) (suffixId : Nat) : Vector UInt64 2 :=
  twoFields (.ofNat (c.sets.idxOf set)) (.ofNat suffixId)

/-- The slot of a form. -/
def formSlot (c : Scheme) (form : String × Mask) : Except StorageError Int64 := do
  let suffixId ← StringTable.require c.suffixes form.1
  return (← c.formLayout.encode (c.formRecord form.2 suffixId)).toInt64

/-- The slots of a pattern: its head, the suffixes of dictionary forms and the forms. -/
def slotsOf (c : Scheme) (p : ResolvedPattern) : Except StorageError (List Int64) := do
  let head ← c.headLayout.encode (c.headRecord p)
  let lemmas ← p.lemmaSuffixes.mapM c.lemmaSlot
  let forms ← p.forms.mapM c.formSlot
  return head.toInt64 :: (lemmas ++ forms)

/-- Lays out patterns one after the other from `place` on: for each the place of its head, which
must be a number of 31 bits, and its slots. -/
def layOut (c : Scheme) (place : Nat) :
    List ResolvedPattern → Except Error (List (Int32 × List Int64))
  | [] => .ok []
  | p :: ps => do
    if countLimit ≤ place then throw (.invalidLexicon .tableTooLong)
    let slots ← c.slotsOf p
    let rest ← c.layOut (place + slots.length) ps
    return (Int32.ofNat place, slots) :: rest

end Scheme

/-- The identifiers of patterns, by the map of their names. -/
def idsOf (starts : StringMap Int32) (ps : List ResolvedPattern) : Except StorageError (List Nat) :=
  ps.mapM fun p =>
    match starts.keyId? p.name with
    | some id => .ok id
    | none => .error (.notFound p.name)

end PatternStore

/-! ## The index by suffixes -/

/-- The patterns that have forms with a suffix, for each suffix. -/
structure SuffixIndex where
  layout : RecordLayout 2
  runs : StringMap Int32
  ids : PackedArray Int32

namespace SuffixIndex

/-- No index. -/
def empty : Except StorageError SuffixIndex := do
  return {
    layout := ← RecordLayout.ofWidths PatternStore.runFields (twoFields 0 0)
    runs := ← StringMap.ofList []
    ids := ← PackedArray.ofList [] }

/-- The distinct suffixes of forms, in order. -/
def suffixesOf (ps : List (Nat × ResolvedPattern)) : List String :=
  ((ps.flatMap (·.2.formSuffixes)).mergeSort fun a b => a ≤ b).eraseReps

/-- The patterns that have a form with the suffix, in the order of their identifiers. -/
def idsWith (ps : List (Nat × ResolvedPattern)) (suffix : String) : List Nat :=
  ((ps.filter (·.2.formSuffixes.contains suffix)).map Prod.fst).mergeSort fun a b => a ≤ b

/-- The lists of patterns of all suffixes. -/
def listsOf (ps : List (Nat × ResolvedPattern)) : List (List Nat) :=
  (suffixesOf ps).map (idsWith ps)

/-- The fields of the entries of lists, which lie one after the other. -/
def runRecords (lists : List (List Nat)) : List (Vector UInt64 2) :=
  (lists.zip (placesFrom 0 lists)).map fun (ids, place) =>
    twoFields (.ofNat ids.length) (.ofNat place)

/-- The index of patterns, which are given with their identifiers. -/
def ofPatterns (ps : List (Nat × ResolvedPattern)) : Except Error SuffixIndex := do
  let lists := listsOf ps
  let records := runRecords lists
  let layout ← RecordLayout.fittingAll PatternStore.runFields records
  checkSlotWidth "suffix run" layout
  return {
    layout
    runs := ← StringMap.ofList ((suffixesOf ps).zip (← encodeSlots layout records))
    ids := ← PackedArray.ofList (lists.flatten.map Int32.ofNat) }

end SuffixIndex

/-! ## The tables -/

namespace PatternStore

/-- The index by suffixes, if there is to be one. -/
def indexOf (starts : StringMap Int32) (ps : List ResolvedPattern) :
    Bool → Except Error SuffixIndex
  | true => do SuffixIndex.ofPatterns ((← idsOf starts ps).zip ps)
  | false => SuffixIndex.empty

/-- The tables of patterns whose grammemes are resolved. -/
def ofResolved (ps : List ResolvedPattern) (withIndex : Bool) : Except Error PatternStore := do
  let scheme ← Scheme.ofPatterns ps
  let laidOut ← scheme.layOut 0 ps
  let starts ← StringMap.ofList ((ps.map ResolvedPattern.name).zip (laidOut.map Prod.fst))
  let index ← indexOf starts ps withIndex
  return {
    grammemeSets := .ofList scheme.sets
    suffixes := scheme.suffixes
    slots := ← PackedArray.ofList (laidOut.map Prod.snd).flatten
    formLayout := scheme.formLayout
    runLayout := index.layout
    frequencies := .ofList scheme.frequencies
    starts
    runs := index.runs
    suffixIndex := index.ids
    headLayout := scheme.headLayout }

/-- The tables of the patterns of a lexicon, whose names must be distinct; there are none without
patterns. -/
def ofPatterns? (grammemes : SortedTable) (patterns : List Lexicon.Pattern) (withIndex : Bool) :
    Except Error (Option PatternStore) := do
  if patterns.isEmpty then return none
  if let some name := firstRepeated? [] (patterns.map Lexicon.Pattern.id) then
    throw (.invalidLexicon (.duplicatePattern name))
  return some (← ofResolved (← ResolvedPattern.ofPatterns grammemes patterns) withIndex)

end PatternStore

end Paradigm
