import Paradigm.Store.Patterns.Building
import Paradigm.Store.Words

/-!
# Compiling lexicons

The tables of a dictionary are built from a lexicon.  Words with equal property maps share one map,
words with equal grammemes share one set, and where it saves space, words with equal data words
share these too.

## Main definitions

* `WordStore.ofLexicon`: the tables of a lexicon
* `Lexicon.compile`: the dictionary of a lexicon as a file
* `Lexicon.check`: the demands on the language and the words of a lexicon
-/

namespace Paradigm

/-! ## Demands on a lexicon -/

namespace Lexicon

/-- The language must fit the header of a dictionary and be a locale identifier. -/
def checkLanguage (language : String) : Except LexiconFault Unit :=
  if language.utf8ByteSize = 0 ∨ WordStore.languageLength < language.utf8ByteSize then
    .error (.languageLength language WordStore.languageLength)
  else
    match Locale.parse language with
    | .ok _ => .ok ()
    | .error cause => .error (.language language cause)

/-- No word may occur again, or among those `seen` before, and none may set the property that lists
its patterns. -/
def checkWords (seen : List String) : List Word → Except LexiconFault Unit
  | [] => .ok ()
  | w :: ws =>
    if seen.contains w.word then .error (.duplicateWord w.word)
    else if w.properties.names.contains inflectionProperty then
      .error (.reservedProperty w.word inflectionProperty)
    else checkWords (w.word :: seen) ws

/-- The demands on the language and the words of a lexicon. -/
def check (l : Lexicon) : Except LexiconFault Unit := do
  checkLanguage l.language
  checkWords [] l.words

/-- The grammemes of a lexicon, which must fit a mask. -/
def grammemeTable (l : Lexicon) : Except Error SortedTable := do
  let t ← SortedTable.ofList l.grammemeNames
  if Mask.capacity < t.size then
    throw (.invalidLexicon (.tooManyGrammemes t.size Mask.capacity))
  return t

/-- The names of the properties of a lexicon, among them the one that lists patterns if a word has
any. -/
def propertyNames (l : Lexicon) : List String :=
  l.words.flatMap (·.properties.names) ++
    if l.words.any (!·.inflections.isEmpty) then [inflectionProperty] else []

/-- The values of the properties of a lexicon. -/
def propertyValues (l : Lexicon) : List String :=
  l.words.flatMap fun w => w.properties.entries.flatMap Prod.snd

end Lexicon

/-! ## Property maps -/

/-- The properties of a word: the keys with the identifiers of their values. -/
abbrev PropertyMap := List (Nat × List Nat)

namespace PropertyMap

/-- The entry of a property, whose values are in a table. -/
def entryOf (names : SortedTable) (values : TrieTable) (property : String × List String) :
    Except StorageError (Nat × List Nat) := do
  let ids ← property.2.mapM (StringTable.require values)
  return (← StringTable.require names property.1, ids)

/-- The identifiers of patterns by their names. -/
def patternIds (patterns : Option PatternStore) (names : List String) : Except Error (List Nat) :=
  names.mapM fun name =>
    match patterns.bind (·.identifier? name) with
    | some id => .ok id
    | none => .error (.unknownPattern name)

/-- The entry that lists the patterns of a word, if it has any. -/
def patternEntries (names : SortedTable) (patterns : Option PatternStore)
    (inflections : List String) : Except Error PropertyMap := do
  if inflections.isEmpty then return []
  let ids ← patternIds patterns inflections
  return [(← StringTable.require names inflectionProperty, ids)]

/-- The entries of the properties that have values. -/
def ownEntries (names : SortedTable) (values : TrieTable) (p : Properties) :
    Except StorageError PropertyMap :=
  (p.entries.filter (!·.2.isEmpty)).mapM (entryOf names values)

/-- The properties of a word, in the order of their keys. -/
def ofWord (names : SortedTable) (values : TrieTable) (patterns : Option PatternStore)
    (w : Lexicon.Word) : Except Error PropertyMap := do
  let own ← ownEntries names values w.properties
  let listed ← patternEntries names patterns w.inflections
  return (own ++ listed).mergeSort fun a b => a.1 ≤ b.1

/-- The layout of entries that holds all of the maps. -/
def layoutFor (names : SortedTable) (maps : List PropertyMap) : Except Error (RecordLayout 3) := do
  let entries := maps.flatten
  let fitting ← RecordLayout.fitting WordStore.mapFields <| threeFields
    (largest (entries.map Prod.fst)) (largest (entries.map (·.2.length))) (.ofNat names.size)
  checkSlotWidth "property map entry" fitting
  return fitting

/-- The fields of the entries of a map; the first one tells their number. -/
def records (m : PropertyMap) : List (Vector UInt64 3) :=
  m.zipIdx.map fun ((key, ids), i) =>
    threeFields (.ofNat key) (.ofNat ids.length) (.ofNat (if i = 0 then m.length else 0))

/-- The identifier of a value in a slot, which must have 31 bits. -/
def valueSlot (id : Nat) : Except Error Int32 :=
  if id < countLimit then .ok (Int32.ofNat id) else .error (.invalidLexicon (.valueTooLarge id))

/-- The slots of a map: its entries and then all values. -/
def slots (layout : RecordLayout 3) (m : PropertyMap) : Except Error (List Int32) := do
  let entries ← encodeSlots layout m.records
  return entries ++ (← (m.flatMap Prod.snd).mapM valueSlot)

end PropertyMap

/-! ## Data words -/

namespace WordStore

/-- Where the property map of each word lies, for the slots of the maps of the words.  Equal maps
lie in one place, and place 0 stands for no properties. -/
def placesOf (maps : List (List Int32)) : List Nat :=
  let distinct := (maps.filter (!·.isEmpty)).eraseDups
  let places := placesFrom 1 distinct
  maps.map fun m => if m.isEmpty then 0 else places.getD (distinct.idxOf m) 0

/-- The slots of the distinct maps, after the one that belongs to none. -/
def mapSlots (maps : List (List Int32)) : List Int32 :=
  0 :: ((maps.filter (!·.isEmpty)).eraseDups).flatten

/-- The distinct sets of grammemes of words, after the empty one. -/
def setsOf (masks : List Mask) : List Mask := (0 :: masks).eraseDups

/-- The layout of data words, just wide enough for the greatest numbers of a set and of a place. -/
def dataLayoutFor (masks : List Mask) (maps : List (List Int32)) :
    Except StorageError (RecordLayout 2) :=
  RecordLayout.fitting dataFields <| twoFields
    (largest (masks.map (setsOf masks).idxOf)) (largest (placesOf maps))

/-- The fields of the data words. -/
def dataRecords (masks : List Mask) (maps : List (List Int32)) : List (Vector UInt64 2) :=
  let sets := setsOf masks
  (masks.zip (placesOf maps)).map fun (mask, place) =>
    twoFields (.ofNat (sets.idxOf mask)) (.ofNat place)

/-- Sharing data words takes less space than storing one for each word. -/
def sharingPays (words distinct width : Nat) : Bool :=
  distinct != 0 &&
    distinct * width + words * bitWidth (UInt64.ofNat (distinct - 1)) < words * width

/-- The values of words, and the data words that these share. -/
def shareData (width : Nat) (data : List UInt64) : List UInt64 × List UInt64 :=
  let distinct := data.eraseDups
  if sharingPays data.length distinct.length width then
    (data.map fun d => UInt64.ofNat (distinct.idxOf d), distinct)
  else (data, [])

/-! ## The tables -/

/-- The sets of grammemes of words. -/
def masksOf (grammemes : SortedTable) (words : List Lexicon.Word) :
    Except Error (List Mask) :=
  words.mapM fun w => grammemes.mask w.grammemes

/-- Data words in their layout. -/
def encodeData (layout : RecordLayout 2) (records : List (Vector UInt64 2)) :
    Except StorageError (List UInt64) :=
  records.mapM layout.encode

/-- The tables of a lexicon. -/
def ofLexicon (l : Lexicon) : Except Error WordStore := do
  if let .error fault := l.check then throw (.invalidLexicon fault)
  let grammemes ← l.grammemeTable
  let patterns ← PatternStore.ofPatterns? grammemes l.patterns l.suffixIndex
  let propertyNames ← SortedTable.ofList l.propertyNames
  let propertyValues ← TrieTable.ofList l.propertyValues
  let maps ← l.words.mapM (PropertyMap.ofWord propertyNames propertyValues patterns)
  let mapLayout ← PropertyMap.layoutFor propertyNames maps
  let slots ← maps.mapM (PropertyMap.slots mapLayout)
  let masks ← masksOf grammemes l.words
  let dataLayout ← dataLayoutFor masks slots
  let data ← encodeData dataLayout (dataRecords masks slots)
  let (values, shared) := shareData (← dataLayout.totalWidth) data
  return {
    language := l.language
    grammemes
    dataLayout
    mapLayout
    words := ← StringMap.ofList ((l.words.map Lexicon.Word.word).zip values)
    grammemeSets := .ofList (setsOf masks)
    sharedData := ← PackedArray.ofList shared
    propertyNames
    propertyValues
    propertyMaps := ← PackedArray.ofList (mapSlots slots)
    patterns }

end WordStore

/-- The dictionary of a lexicon, as the content of a file. -/
def Lexicon.compile (l : Lexicon) : Except Error View := do
  let store ← WordStore.ofLexicon l
  return (← store.write .empty).toView

end Paradigm
