import Mathlib
import Paradigm.Proofs.Store.Grammemes
import Paradigm.Proofs.Store.Patterns.SuffixIndex
import Paradigm.Proofs.Store.PropertyMaps

/-!
# The answers of stored words

The data word of a word refers to its set of grammemes and to its property map, whether words carry
their data words themselves or share them.

## Main definitions

* `WordStore.Stores`: the tables stand for a lexicon
* `WordStore.MapOf`: a property map lists the properties of a word
* `WordStore.mappedForm`: the tables as they are read from a file

## Main results

* `WordStore.Stores.wordGrammemes?_eq`, `WordStore.Stores.wordGrammemes?_eq_none`: the grammemes of
  words
* `WordStore.Stores.allWords_perm`: all words are listed once
* `WordStore.Stores.propertyIds?_eq`: the property map of a word is searched
* `WordStore.write_mappedForm`: tables that were read are stored as before
* `WordStore.readsBack_write`: the stored form is read back
* `WordStore.local_read`: no more of a file is looked at than is read
-/

namespace Paradigm

/-- The sets of grammemes of the words of a lexicon. -/
def Lexicon.wordMasks (l : Lexicon) : List Mask := l.words.map fun w => l.maskOf w.grammemes

/-- The properties of a word that have values, and its patterns if it has any. -/
def Lexicon.Word.listed (w : Lexicon.Word) : List (String × List String) :=
  w.properties.entries.filter (!·.2.isEmpty) ++
    if w.inflections.isEmpty then [] else [(inflectionProperty, w.inflections)]

namespace WordStore

/-! ## Data words -/

theorem length_shareData (width : Nat) (data : List UInt64) :
    (shareData width data).1.length = data.length := by
  unfold shareData
  dsimp only
  split
  · rw [List.length_map]
  · rfl

/-- The value of a word is its data word, or the number of its data word among the shared ones. -/
theorem getElem?_shareData {width i : Nat} {data : List UInt64} {d : UInt64}
    (hbound : (shareData width data).2.length < addressLimit) (hi : data[i]? = some d) :
    ∃ v, (shareData width data).1[i]? = some v ∧
      if (shareData width data).2.isEmpty then v = d
      else (shareData width data).2[v.toNat]? = some d := by
  unfold shareData at *
  dsimp only at *
  split at hbound
  · rename_i hpays
    rw [if_pos hpays]
    have hmem : d ∈ data.eraseDups := List.mem_eraseDups.2 (List.mem_of_getElem? hi)
    have hlt := List.idxOf_lt_length_of_mem hmem
    refine ⟨UInt64.ofNat (data.eraseDups.idxOf d), by rw [List.getElem?_map, hi]; rfl, ?_⟩
    rw [if_neg (by simpa using List.ne_nil_of_mem hmem), toNat_ofNat (hlt.trans hbound),
      List.getElem?_eq_getElem hlt, List.getElem_idxOf]
  · rename_i hpays
    rw [if_neg hpays]
    exact ⟨d, hi, by simp⟩

/-- The place of a map among distinct maps, before which the slot for words without maps lies. -/
theorem exists_placesFrom {distinct : List (List Int32)} {m : List Int32} (hmem : m ∈ distinct) :
    ∃ place, (placesFrom 1 distinct)[distinct.idxOf m]? = some place ∧ 0 < place ∧
      place + m.length ≤ (0 :: distinct.flatten).length ∧
      ∀ (j : Nat) slot, m[j]? = some slot → (0 :: distinct.flatten)[place + j]? = some slot := by
  have hlt := List.idxOf_lt_length_of_mem hmem
  have hget : distinct[distinct.idxOf m]? = some m := by
    rw [List.getElem?_eq_getElem hlt, List.getElem_idxOf]
  obtain ⟨place, hplace⟩ : ∃ place, (placesFrom 1 distinct)[distinct.idxOf m]? = some place :=
    ⟨_, List.getElem?_eq_getElem (by rwa [length_placesFrom])⟩
  have hfirst : (placesFrom [(0 : Int32)].length distinct)[distinct.idxOf m]? = some place :=
    hplace
  refine ⟨place, hplace, ?_, place_add_length_le hget hfirst, ?_⟩
  · rw [getElem?_placesFrom 1 distinct hlt] at hplace
    have := Option.some.inj hplace
    omega
  · intro j slot hj
    exact (getElem?_flatten_of_place hget hfirst (List.getElem?_eq_some_iff.1 hj).1).trans hj

/-- Where the map of a word lies: nowhere if it is empty, and else in the slots from its place
on. -/
theorem getElem?_placesOf {maps : List (List Int32)} {i : Nat} {m : List Int32}
    (hi : maps[i]? = some m) : ∃ place, (placesOf maps)[i]? = some place ∧
      place < (mapSlots maps).length ∧ (place = 0 ↔ m = []) ∧
      ∀ (j : Nat) slot, m[j]? = some slot → (mapSlots maps)[place + j]? = some slot := by
  unfold placesOf
  dsimp only
  rw [List.getElem?_map, hi]
  by_cases hm : m = []
  · subst hm
    refine ⟨0, rfl, Nat.succ_pos _, ⟨fun _ => rfl, fun _ => rfl⟩, ?_⟩
    intro j slot hj
    cases hj
  · have hmem : m ∈ (maps.filter (!·.isEmpty)).eraseDups := by
      rw [List.mem_eraseDups, List.mem_filter]
      exact ⟨List.mem_of_getElem? hi, by simpa using hm⟩
    obtain ⟨place, hplace, hpos, hend, hslots⟩ := exists_placesFrom hmem
    have hlength : 0 < m.length := List.length_pos_of_ne_nil hm
    refine ⟨place, ?_, ?_, ?_, hslots⟩
    · rw [Option.map_some, if_neg (by simpa using hm), List.getD_eq_getElem?_getD, hplace]
      rfl
    · rw [mapSlots]
      omega
    · exact ⟨fun hzero => absurd hzero hpos.ne', fun hnil => absurd hnil hm⟩

theorem length_dataRecords {masks : List Mask} {maps : List (List Int32)}
    (h : masks.length = maps.length) : (dataRecords masks maps).length = masks.length := by
  rw [dataRecords, List.length_map, List.length_zip, placesOf, List.length_map, ← h, Nat.min_self]

theorem getElem?_dataRecords {masks : List Mask} {maps : List (List Int32)} {i place : Nat}
    {mask : Mask} (hmask : masks[i]? = some mask) (hplace : (placesOf maps)[i]? = some place) :
    (dataRecords masks maps)[i]? =
      some (twoFields (.ofNat ((setsOf masks).idxOf mask)) (.ofNat place)) := by
  have hzip : (masks.zip (placesOf maps))[i]? = some (mask, place) :=
    List.getElem?_zip_eq_some.2 ⟨hmask, hplace⟩
  unfold dataRecords
  dsimp only
  rw [List.getElem?_map, hzip]
  rfl

/-! ## Tables that stand for a lexicon -/

/-- The identifier of a value of a property: of a pattern for the property that lists patterns, and
of a string for all others. -/
def valueId? (s : WordStore) (property value : String) : Option Nat :=
  if property = inflectionProperty then s.patterns.bind (·.identifier? value)
  else s.propertyValues.identifier? value

/-- A map lists the properties of a word by their keys, with the identifiers of their values. -/
structure MapOf (s : WordStore) (l : Lexicon) (w : Lexicon.Word) (m : PropertyMap) : Prop where
  sorted : m.Pairwise (·.1 < ·.1)
  entries : ∃ entries : PropertyMap, entries.Perm m ∧ List.Forall₂ (fun p e =>
    (sortedStrings l.propertyNames)[e.1]? = some p.1 ∧
      List.Forall₂ (fun value id => s.valueId? p.1 value = some id) p.2 e.2) w.listed entries

theorem MapOf.nodup_keys {s : WordStore} {l : Lexicon} {w : Lexicon.Word} {m : PropertyMap}
    (h : s.MapOf l w m) : (m.map Prod.fst).Nodup :=
  Pairwise.nodup_of_irrefl Nat.lt_irrefl (List.pairwise_map.2 h.sorted)

/-- The tables of patterns stand for those of a lexicon. -/
def StoresPatterns (s : WordStore) (l : Lexicon) : Prop :=
  (l.patterns = [] ∧ s.patterns = none) ∨ ∃ ps slots, l.patterns ≠ [] ∧ s.patterns = some ps ∧
    ps.Stores (l.patterns.map l.resolved) slots

theorem StoresPatterns.eq_none_iff {s : WordStore} {l : Lexicon} (h : s.StoresPatterns l) :
    s.patterns = none ↔ l.patterns = [] := by
  rcases h with ⟨hnil, hnone⟩ | ⟨ps, slots, hne, hsome, -⟩
  · exact iff_of_true hnone hnil
  · rw [hsome]
    exact iff_of_false nofun hne

theorem StoresPatterns.exists_stores {s : WordStore} {l : Lexicon} {ps : PatternStore}
    (h : s.StoresPatterns l) (hps : s.patterns = some ps) :
    ∃ slots, ps.Stores (l.patterns.map l.resolved) slots := by
  rcases h with ⟨-, hnone⟩ | ⟨ps', slots, -, hsome, hstores⟩
  · rw [hps] at hnone
    cases hnone
  · obtain rfl := Option.some.inj (hps.symm.trans hsome)
    exact ⟨slots, hstores⟩

/-- The number of bits of a data word. -/
def dataWidth (s : WordStore) : Nat := RecordLayout.span s.dataLayout.widths.toList

/-- The tables stand for a lexicon.  The property maps of its words with their slots and the data
words are given. -/
structure Stores (s : WordStore) (l : Lexicon) (maps : List PropertyMap)
    (slots : List (List Int32)) (data : List UInt64) : Prop where
  grammemes : l.GrammemesIn s.grammemes
  sets : s.grammemeSets.toList = setsOf l.wordMasks
  patterns : s.StoresPatterns l
  suffixIndex : ∀ ps, s.patterns = some ps →
    ps.Indexes l.suffixIndex (l.patterns.map l.resolved)
  propertyNames : s.propertyNames.Stores (sortedStrings l.propertyNames)
  keys_bound : (sortedStrings l.propertyNames).length < addressLimit
  propertyValues : ∃ strings, s.propertyValues.trie.Stores strings
  mapsOf : List.Forall₂ (s.MapOf l) l.words maps
  mapNames : s.mapLayout.names = mapFields
  mapSpan : RecordLayout.span s.mapLayout.widths.toList ≤ 32
  entryCountWidth : (tripleOf s.mapLayout.widths).2.2 =
    UInt32.ofNat (WordStore.entryCountWidth s.propertyNames.size)
  slots_eq : List.Forall₂ (fun m run => PropertyMap.slots s.mapLayout m = .ok run) maps slots
  propertyMaps : s.propertyMaps.Holds (mapSlots slots)
  maps_bound : (mapSlots slots).length < addressLimit
  dataLayout : s.dataLayout.names = dataFields ∧ s.dataLayout.WithinWord
  encoded : List.Forall₂ (fun record d => s.dataLayout.encode record = .ok d)
    (dataRecords l.wordMasks slots) data
  words : ∃ names values, s.words.Stores names values ∧ (names.zip values).Perm
    ((l.words.map Lexicon.Word.word).zip (shareData s.dataWidth data).1)
  words_bound : l.words.length < addressLimit
  sharedData : s.sharedData.Holds (shareData s.dataWidth data).2
  sharedData_isEmpty :
    s.sharedData.isEmpty = (shareData s.dataWidth data).2.isEmpty
  shared_bound : (shareData s.dataWidth data).2.length < addressLimit

namespace Stores

variable {s : WordStore} {l : Lexicon} {maps : List PropertyMap} {slots : List (List Int32)}
  {data : List UInt64} {w : Lexicon.Word} {word : String} {i : Nat}

/-- What lies in the slots of each map. -/
theorem slotsOf (h : s.Stores l maps slots data) :
    List.Forall₂ (PropertyMap.SlotsOf s.mapLayout) maps slots :=
  h.slots_eq.imp fun _ _ hm => PropertyMap.slotsOf_of_slots h.mapSpan hm

/-! ## Grammemes of words -/

/-- The data word of a word. -/
theorem data?_eq (h : s.Stores l maps slots data) (hw : l.words[i]? = some w) {d : UInt64}
    (hd : data[i]? = some d) : s.data? w.word = .ok (some d) := by
  -- the entry of the word has the value that stands for the data word
  obtain ⟨v, hv, hshared⟩ := getElem?_shareData h.shared_bound hd
  obtain ⟨names, values, hstores, hperm⟩ := h.words
  have hmem : (w.word, v) ∈ names.zip values := by
    rw [hperm.mem_iff]
    apply List.mem_of_getElem? (i := i)
    rw [List.getElem?_zip_eq_some, List.getElem?_map, hw]
    exact ⟨rfl, hv⟩
  rw [data?, hstores.find?_eq hmem, Except.ok_bind]
  simp only [hasSharedData, h.sharedData_isEmpty]
  split at hshared
  · rename_i hempty
    rw [hempty, hshared]
    rfl
  · rename_i hempty
    rw [Bool.not_eq_true] at hempty
    rw [hempty, h.sharedData.get? hshared]
    rfl

/-- Every word has a data word. -/
theorem length_data (h : s.Stores l maps slots data) : data.length = l.words.length := by
  have hmasks : l.wordMasks.length = l.words.length := List.length_map ..
  have hslots : l.wordMasks.length = slots.length := by
    rw [hmasks, h.mapsOf.length_eq, h.slotsOf.length_eq]
  rw [← h.encoded.length_eq, length_dataRecords hslots, hmasks]

/-- The names of words. -/
theorem names (h : s.Stores l maps slots data) : ∃ names values, s.words.Stores names values ∧
    names.Perm (l.words.map Lexicon.Word.word) := by
  obtain ⟨names, values, hstores, hperm⟩ := h.words
  refine ⟨names, values, hstores, ?_⟩
  have hlength : (l.words.map Lexicon.Word.word).length ≤
      (shareData s.dataWidth data).1.length := by
    rw [length_shareData, List.length_map, h.length_data]
  have hfst := hperm.map Prod.fst
  rwa [List.map_fst_zip hlength, List.map_fst_zip hstores.length_eq.le] at hfst

/-- Other strings have no data word. -/
theorem data?_eq_none (h : s.Stores l maps slots data)
    (hword : word ∉ l.words.map Lexicon.Word.word) : s.data? word = .ok none := by
  obtain ⟨names, values, hstores, hperm⟩ := h.names
  rw [data?, hstores.find?_eq_none fun hmem => hword (hperm.mem_iff.1 hmem)]
  rfl

/-- There are as many words as in the lexicon. -/
theorem size_eq (h : s.Stores l maps slots data) : s.size = l.words.length := by
  obtain ⟨names, values, hstores, hperm⟩ := h.names
  rw [size, hstores.numbering.size_eq, hperm.length_eq, List.length_map]

/-- The fields of the data word of a word. -/
theorem exists_data (h : s.Stores l maps slots data) (hw : l.words[i]? = some w) :
    ∃ d place, data[i]? = some d ∧ (placesOf slots)[i]? = some place ∧
      s.dataLayout.decode d = .ok (twoFields
        (.ofNat ((setsOf l.wordMasks).idxOf (l.maskOf w.grammemes))) (.ofNat place)) := by
  have hlt := (List.getElem?_eq_some_iff.1 hw).1
  have hslot : i < slots.length := by
    rwa [← h.slotsOf.length_eq, ← h.mapsOf.length_eq]
  obtain ⟨place, hplace, -, -, -⟩ := getElem?_placesOf (List.getElem?_eq_getElem hslot)
  have hmask : l.wordMasks[i]? = some (l.maskOf w.grammemes) := by
    rw [Lexicon.wordMasks, List.getElem?_map, hw]
    rfl
  obtain ⟨hrecord, hget⟩ := List.getElem?_eq_some_iff.1 (getElem?_dataRecords hmask hplace)
  have hdata : i < data.length := h.encoded.length_eq ▸ hrecord
  have hencode := h.encoded.get hrecord hdata
  refine ⟨data[i], place, List.getElem?_eq_getElem hdata, hplace, ?_⟩
  rw [← hget]
  exact RecordLayout.decode_of_encode h.dataLayout.2 hencode

/-- The number of the set of a word. -/
theorem idxOf_lt (h : s.Stores l maps slots data) (hw : w ∈ l.words) :
    (setsOf l.wordMasks).idxOf (l.maskOf w.grammemes) < addressLimit ∧
      (setsOf l.wordMasks)[(setsOf l.wordMasks).idxOf (l.maskOf w.grammemes)]? =
        some (l.maskOf w.grammemes) := by
  have hmem : l.maskOf w.grammemes ∈ setsOf l.wordMasks := by
    rw [setsOf, List.mem_eraseDups]
    exact List.mem_cons_of_mem _ (List.mem_map_of_mem hw)
  have hlt := List.idxOf_lt_length_of_mem hmem
  have hlength : (setsOf l.wordMasks).length ≤ _ := length_eraseDups_le _
  have hbound := h.words_bound
  rw [List.length_cons, Lexicon.wordMasks, List.length_map, ← Lexicon.wordMasks] at hlength
  refine ⟨by omega, ?_⟩
  rw [List.getElem?_eq_getElem hlt, List.getElem_idxOf]

theorem idxOf_setsOf_eq_zero {masks : List Mask} {mask : Mask} :
    (setsOf masks).idxOf mask = 0 ↔ mask = 0 := by
  rw [setsOf, List.eraseDups_cons, List.idxOf_cons]
  by_cases hmask : mask = 0
  · subst hmask
    simp
  · rw [beq_eq_false_iff_ne.2 (Ne.symm hmask)]
    simp [hmask]

/-- The grammemes of a word of the lexicon. -/
theorem wordGrammemes?_eq (h : s.Stores l maps slots data) (hw : w ∈ l.words) :
    s.wordGrammemes? w.word =
      .ok (if w.grammemes = [] then none else some (l.maskOf w.grammemes)) := by
  obtain ⟨i, hi⟩ := List.mem_iff_getElem?.1 hw
  obtain ⟨d, place, hd, -, hdecode⟩ := h.exists_data hi
  obtain ⟨hlt, hget⟩ := h.idxOf_lt hw
  rw [wordGrammemes?, h.data?_eq hi hd, Except.ok_bind]
  simp only [hdecode, Except.ok_bind, pairOf_twoFields]
  -- the first set is the empty one, and only words without grammemes have it
  have hzero : UInt64.ofNat ((setsOf l.wordMasks).idxOf (l.maskOf w.grammemes)) = 0 ↔
      w.grammemes = [] := by
    rw [← UInt64.toNat_inj, toNat_ofNat hlt, UInt64.toNat_zero, idxOf_setsOf_eq_zero,
      h.grammemes.maskOf_eq_zero (Lexicon.grammemes_subset hw)]
  have hset : s.grammemeSets.get ((setsOf l.wordMasks).idxOf (l.maskOf w.grammemes)) =
      .ok (l.maskOf w.grammemes) := by
    apply PlainArray.get_eq_ok
    rw [h.sets, hget]
  simp only [hzero, toNat_ofNat hlt, hset]
  split
  · rfl
  · rfl

/-- A grammeme of the lexicon is known by its name. -/
theorem grammeme?_eq (h : s.Stores l maps slots data) {name : String}
    (hname : name ∈ l.grammemeNames) :
    s.grammeme? name = some (.single (l.grammemeRank name)) := by
  rw [grammeme?, h.grammemes.identifier?_eq hname]
  exact if_pos (h.grammemes.grammemeRank_lt hname)

theorem knownGrammemes_eq (h : s.Stores l maps slots data) {names : List String}
    (hnames : names ⊆ l.grammemeNames) : s.knownGrammemes names = l.maskOf names := by
  rw [knownGrammemes, Lexicon.maskOf]
  congr 1
  rw [← List.filterMap_eq_map]
  apply List.filterMap_congr
  intro name hname
  exact h.grammeme?_eq (hnames hname)

/-- Other strings have no grammemes. -/
theorem wordGrammemes?_eq_none (h : s.Stores l maps slots data)
    (hword : word ∉ l.words.map Lexicon.Word.word) : s.wordGrammemes? word = .ok none := by
  rw [wordGrammemes?, h.data?_eq_none hword]
  rfl

/-- All words are listed once, and nothing else is. -/
theorem allWords_perm (h : s.Stores l maps slots data) : ∃ words : List String,
    s.allWords = words.map .ok ∧ words.Perm (l.words.map Lexicon.Word.word) := by
  obtain ⟨names, values, hstores, hnames⟩ := h.names
  obtain ⟨entries, hentries, hperm⟩ := hstores.withPrefix_empty
  refine ⟨entries.map Prod.fst, ?_, hperm.trans hnames⟩
  rw [allWords, hentries, List.map_map, List.map_map]
  rfl

/-! ## Properties of words -/

/-- The property map of a word lies where its data word tells. -/
theorem mapAt (h : s.Stores l maps slots data) {m : PropertyMap} {place : Nat}
    (hw : l.words[i]? = some w) (hm : maps[i]? = some m)
    (hplace : (placesOf slots)[i]? = some place) :
    place < addressLimit ∧ (place = 0 ↔ m = []) ∧ s.MapAt m place := by
  obtain ⟨hlt, rfl⟩ := List.getElem?_eq_some_iff.1 hm
  have hword := (List.getElem?_eq_some_iff.1 hw).1
  have hslot : i < slots.length := by rwa [← h.slotsOf.length_eq]
  have hof : PropertyMap.SlotsOf s.mapLayout maps[i] slots[i] := h.slotsOf.get hlt hslot
  have hmap : s.MapOf l l.words[i] maps[i] := h.mapsOf.get hword hlt
  obtain ⟨place', hplace', hbelow, hzero, hread⟩ :=
    getElem?_placesOf (List.getElem?_eq_getElem hslot)
  obtain rfl := Option.some.inj (hplace.symm.trans hplace')
  have hbound := h.maps_bound
  refine ⟨by omega, hzero.trans hof.isEmpty_eq, ?_⟩
  constructor
  case sorted => exact hmap.sorted
  case keys_lt =>
    -- a key is the number of the name of a property
    intro e he
    obtain ⟨entries, hperm, hentries⟩ := hmap.entries
    obtain ⟨j, hj⟩ := List.mem_iff_getElem?.1 (hperm.mem_iff.2 he)
    obtain ⟨hjlt, rfl⟩ := List.getElem?_eq_some_iff.1 hj
    have hkey := (hentries.get (hentries.length_eq ▸ hjlt) hjlt).1
    exact (List.getElem?_eq_some_iff.1 hkey).1.trans h.keys_bound
  case slots =>
    refine ⟨slots[i], hof, ?_, fun j slot hj => h.propertyMaps.get? (hread j slot hj)⟩
    -- a map is no longer than all slots, since its last slot is one of them
    by_contra hlong
    have hlast : addressLimit - 1 < slots[i].length := by omega
    have hget := hread _ _ (List.getElem?_eq_getElem hlast)
    have hwithin := (List.getElem?_eq_some_iff.1 hget).1
    omega

/-- The property map of a word is searched. -/
theorem propertyIds?_eq (h : s.Stores l maps slots data) {m : PropertyMap}
    (hw : l.words[i]? = some w) (hm : maps[i]? = some m) (key : Nat) :
    s.propertyIds? w.word key = .ok (m.lookup key) := by
  obtain ⟨d, place, hd, hplace, hdecode⟩ := h.exists_data hw
  obtain ⟨hlt, hzero, hat⟩ := h.mapAt hw hm hplace
  -- words without a map are told by the place, and no other map is empty
  have hplaceZero : UInt64.ofNat place = 0 ↔ m = [] := by
    rw [← UInt64.toNat_inj, toNat_ofNat hlt, UInt64.toNat_zero, hzero]
  rw [propertyIds?, h.data?_eq hw hd, Except.ok_bind]
  simp only [hdecode, Except.ok_bind, pairOf_twoFields, hplaceZero, toNat_ofNat hlt]
  cases m with
  | nil => rfl
  | cons e m =>
    obtain ⟨k, ids⟩ := e
    have hentry := hat.mapEntry_eq_ok (i := 0) rfl
    rw [Nat.add_zero, if_pos rfl] at hentry
    rw [if_neg (List.cons_ne_nil _ _), hentry, Except.ok_bind]
    exact hat.findValues_eq key

/-- Other strings have no properties. -/
theorem propertyIds?_eq_none (h : s.Stores l maps slots data)
    (hword : word ∉ l.words.map Lexicon.Word.word) (key : Nat) :
    s.propertyIds? word key = .ok none := by
  rw [propertyIds?, h.data?_eq_none hword]
  rfl

/-- The property map of a word and its slots. -/
theorem exists_map (h : s.Stores l maps slots data) (hw : w ∈ l.words) : ∃ (i : Nat) (m : _)
    (run : _), l.words[i]? = some w ∧ maps[i]? = some m ∧ slots[i]? = some run ∧
      s.MapOf l w m ∧ PropertyMap.slots s.mapLayout m = .ok run := by
  obtain ⟨i, hi⟩ := List.mem_iff_getElem?.1 hw
  obtain ⟨hlt, rfl⟩ := List.getElem?_eq_some_iff.1 hi
  have hm : i < maps.length := h.mapsOf.length_eq ▸ hlt
  have hrun : i < slots.length := h.slots_eq.length_eq ▸ hm
  exact ⟨i, maps[i], slots[i], hi, List.getElem?_eq_getElem hm, List.getElem?_eq_getElem hrun,
    h.mapsOf.get hlt hm, h.slots_eq.get hm hrun⟩

/-- The values of a listed property are stored under its key. -/
theorem exists_propertyIds (h : s.Stores l maps slots data) (hw : w ∈ l.words) {property : String}
    {values : List String} (hlisted : (property, values) ∈ w.listed) : ∃ key ids,
      s.propertyKey? property = some key ∧ s.propertyIds? w.word key = .ok (some ids) ∧
        List.Forall₂ (fun value id => s.valueId? property value = some id) values ids := by
  obtain ⟨i, m, run, hi, hm, -, hmap, -⟩ := h.exists_map hw
  obtain ⟨entries, hperm, hentries⟩ := hmap.entries
  obtain ⟨j, hj⟩ := List.mem_iff_getElem?.1 hlisted
  obtain ⟨hjlt, hp⟩ := List.getElem?_eq_some_iff.1 hj
  have hentry : j < entries.length := hentries.length_eq ▸ hjlt
  obtain ⟨hkey, hids⟩ := hentries.get hjlt hentry
  simp only [List.get_eq_getElem, hp] at hkey hids
  have hmem : entries[j] ∈ m := hperm.mem_iff.1 (List.getElem_mem _)
  refine ⟨entries[j].1, entries[j].2, h.propertyNames.identifier?_eq_some_iff.2 hkey, ?_, hids⟩
  rw [h.propertyIds?_eq hi hm]
  exact congrArg Except.ok ((lookup_eq_some_iff_mem hmap.nodup_keys).2 hmem)

/-- The identifiers of the patterns of a word are stored under the key for patterns. -/
theorem exists_patternIds (h : s.Stores l maps slots data) (hw : w ∈ l.words)
    (hne : w.inflections ≠ []) : ∃ key ids, s.inflectionKey? = some key ∧
      s.propertyIds? w.word key = .ok (some ids) ∧ List.Forall₂ (fun name id =>
        s.patterns.bind (·.identifier? name) = some id) w.inflections ids := by
  have hlisted : (inflectionProperty, w.inflections) ∈ w.listed := by
    rw [Lexicon.Word.listed, List.mem_append, if_neg (by simpa using hne)]
    exact Or.inr (List.mem_singleton_self _)
  obtain ⟨key, ids, hkey, hids, hvalues⟩ := h.exists_propertyIds hw hlisted
  refine ⟨key, ids, hkey, hids, hvalues.imp ?_⟩
  intro name id hid
  rwa [valueId?, if_pos rfl] at hid

end Stores

/-! ## The stored form -/

/-- The tables as they are read from a file, where the language and the sizes of two tables are
given. -/
def mappedForm (s : WordStore) (language : String) (valueSize suffixSize : Nat) : WordStore where
  language := language
  grammemes := s.grammemes.mappedForm
  dataLayout := s.dataLayout
  mapLayout := s.mapLayout
  words := s.words.mappedForm
  grammemeSets := s.grammemeSets.mappedForm
  sharedData := s.sharedData.mappedForm
  propertyNames := s.propertyNames.mappedForm
  propertyValues := { s.propertyValues with encodedSize := valueSize }
  propertyMaps := s.propertyMaps.mappedForm
  patterns := s.patterns.map (·.mappedForm suffixSize)

/-- Tables that are read from a file are stored as before, if the language has the same code. -/
theorem write_mappedForm (s : WordStore) {language : String}
    (h : languageBytes language = languageBytes s.language) (valueSize suffixSize : Nat) :
    (s.mappedForm language valueSize suffixSize).write = s.write := by
  have hlanguage : languageBytes (s.mappedForm language valueSize suffixSize).language =
      languageBytes s.language := h
  -- the sections that hold arrays in place
  have hgrammemes := s.grammemes.write_mappedForm
  have hsets := s.grammemeSets.putArray_mappedForm
  have hnames := s.propertyNames.write_mappedForm
  funext out
  unfold write
  rw [hlanguage]
  cases hpatterns : s.patterns with
  | none =>
    have hmapped : (s.mappedForm language valueSize suffixSize).patterns = none := by
      rw [mappedForm, hpatterns, Option.map_none]
    rw [hmapped]
    simp only [mappedForm, hgrammemes, hsets, hnames, PlainArray.size_mappedForm]
    rfl
  | some ps =>
    have hmapped : (s.mappedForm language valueSize suffixSize).patterns =
        some (ps.mappedForm suffixSize) := by
      rw [mappedForm, hpatterns, Option.map_some]
    rw [hmapped]
    simp only [mappedForm, hgrammemes, hsets, hnames, PlainArray.size_mappedForm,
      PatternStore.write_mappedForm]
    rfl

theorem valueId?_mappedForm (s : WordStore) (language property value : String)
    (valueSize suffixSize : Nat) : (s.mappedForm language valueSize suffixSize).valueId? property
      value = s.valueId? property value := by
  unfold valueId?
  split
  · show (s.patterns.map _).bind _ = _
    cases s.patterns <;> rfl
  · rfl

theorem StoresPatterns.mappedForm {s : WordStore} {l : Lexicon} (h : s.StoresPatterns l)
    (language : String) (valueSize suffixSize : Nat) :
    (s.mappedForm language valueSize suffixSize).StoresPatterns l := by
  rcases h with ⟨hnil, hnone⟩ | ⟨ps, slots, hne, hsome, hps⟩
  · refine Or.inl ⟨hnil, ?_⟩
    show s.patterns.map _ = none
    rw [hnone]
    rfl
  · refine Or.inr ⟨ps.mappedForm suffixSize, slots, hne, ?_, hps.mappedForm suffixSize⟩
    show s.patterns.map _ = some _
    rw [hsome]
    rfl

theorem MapOf.mappedForm {s : WordStore} {l : Lexicon} {w : Lexicon.Word} {m : PropertyMap}
    (h : s.MapOf l w m) (language : String) (valueSize suffixSize : Nat) :
    (s.mappedForm language valueSize suffixSize).MapOf l w m := by
  obtain ⟨entries, hperm, hentries⟩ := h.entries
  refine ⟨h.sorted, entries, hperm, hentries.imp ?_⟩
  rintro p e ⟨hkey, hids⟩
  simp only [valueId?_mappedForm]
  exact ⟨hkey, hids⟩

theorem Stores.mappedForm {s : WordStore} {l : Lexicon} {maps : List PropertyMap}
    {slots : List (List Int32)} {data : List UInt64} (h : s.Stores l maps slots data)
    (language : String) (valueSize suffixSize : Nat) :
    (s.mappedForm language valueSize suffixSize).Stores l maps slots data := by
  obtain ⟨names, values, hstores, hperm⟩ := h.words
  exact {
    grammemes := h.grammemes.mappedForm
    sets := s.grammemeSets.toList_mappedForm.trans h.sets
    patterns := h.patterns.mappedForm language valueSize suffixSize
    suffixIndex := by
      intro ps hps
      obtain ⟨ps', hps', rfl⟩ := Option.map_eq_some_iff.1 hps
      exact (h.suffixIndex ps' hps').mappedForm suffixSize
    propertyNames := h.propertyNames.mappedForm
    keys_bound := h.keys_bound
    propertyValues := h.propertyValues
    mapsOf := h.mapsOf.imp fun _ _ hmap => hmap.mappedForm language valueSize suffixSize
    mapNames := h.mapNames
    mapSpan := h.mapSpan
    entryCountWidth := by
      rw [WordStore.mappedForm, SortedTable.size_mappedForm]
      exact h.entryCountWidth
    slots_eq := h.slots_eq
    propertyMaps := h.propertyMaps.mappedForm
    maps_bound := h.maps_bound
    dataLayout := h.dataLayout
    encoded := h.encoded
    words := ⟨names, values, hstores.mappedForm, hperm⟩
    words_bound := h.words_bound
    sharedData := h.sharedData.mappedForm
    sharedData_isEmpty := h.sharedData_isEmpty
    shared_bound := h.shared_bound }

theorem length_languageBytes {language : String} {code : List UInt8}
    (h : languageBytes language = .ok code) : code.length = languageLength := by
  unfold languageBytes at h
  dsimp only at h
  split at h
  · cases h
  · obtain rfl := Except.ok.inj h
    rw [List.length_append, List.length_replicate]
    omega

/-- The width of the number of entries, which is not stored, is that of the layout. -/
theorem Stores.entryCountWidth_eq {s : WordStore} {l : Lexicon} {maps : List PropertyMap}
    {slots : List (List Int32)} {data : List UInt64} (h : s.Stores l maps slots data) :
    Int8.ofNat (WordStore.entryCountWidth s.propertyNames.size) =
      (tripleOf s.mapLayout.headerWidths).2.2 := by
  have hle : WordStore.entryCountWidth s.propertyNames.size ≤ 64 := bitWidth_le _
  have hwidth : (tripleOf s.mapLayout.widths).2.2.toNat =
      WordStore.entryCountWidth s.propertyNames.size := by
    rw [h.entryCountWidth, UInt32.toNat_ofNat_of_lt' (hle.trans_lt (by decide))]
  rw [RecordLayout.headerWidths, RecordLayout.tripleOf_map, hwidth]
  rfl

theorem patternsOption_set (b : Bool) :
    (if b then patternsOption else 0) &&& patternsOption ≠ 0 ↔ b := by
  cases b <;> decide

/-- Stored tables are read back. -/
theorem readsBack_write {s : WordStore} {l : Lexicon} {maps : List PropertyMap}
    {slots : List (List Int32)} {data : List UInt64} (hs : s.Stores l maps slots data)
    {code : List UInt8} (hcode : languageBytes s.language = .ok code) {language : String}
    (hlanguage : languageOfBytes code = .ok language) {out out' : Writer}
    (h : s.write out = .ok out') : ∃ valueSize suffixSize,
      ReadsBack out out' read (s.mappedForm language valueSize suffixSize) := by
  obtain ⟨names, values, hwords, -⟩ := hs.words
  obtain ⟨strings, hstrings⟩ := hs.propertyValues
  obtain ⟨code', hcode', h⟩ := Except.bind_eq_ok.1 h
  obtain rfl := Except.ok.inj (hcode.symm.trans hcode')
  obtain ⟨o₁, h₁, h⟩ := Except.bind_eq_ok.1 h
  obtain ⟨o₂, h₂, h⟩ := Except.bind_eq_ok.1 h
  obtain ⟨o₃, h₃, h⟩ := Except.bind_eq_ok.1 h
  obtain ⟨o₄, h₄, h⟩ := Except.bind_eq_ok.1 h
  obtain ⟨o₅, h₅, h⟩ := Except.bind_eq_ok.1 h
  obtain ⟨o₆, h₆, h⟩ := Except.bind_eq_ok.1 h
  obtain ⟨o₇, h₇, h⟩ := Except.bind_eq_ok.1 h
  -- the tables of patterns are the last section, and stored only if there are any
  obtain ⟨suffixSize, hpatterns⟩ : ∃ suffixSize, ReadsBack o₇ out'
      (if s.patterns.isSome then some <$> PatternStore.read else pure none)
      (s.patterns.map (·.mappedForm suffixSize)) := by
    rcases hs.patterns with ⟨-, hnone⟩ | ⟨ps, pslots, -, hsome, hps⟩
    · rw [hnone] at h ⊢
      obtain rfl := Except.ok.inj h
      exact ⟨0, ReadsBack.pure _ _⟩
    · rw [hsome] at h ⊢
      obtain ⟨suffixSize, hread⟩ := PatternStore.readsBack_write hps h
      exact ⟨suffixSize, hread.map some⟩
  refine ⟨o₆.position - o₅.position, suffixSize, ?_⟩
  -- the start of the file and then the sections in the order in which they are written
  apply (readsBack_putAll out magic).bind
  rw [if_neg fun hne => hne rfl]
  apply (readsBack_putVersion _ version).bind
  apply (readsBack_put _ (if s.patterns.isSome then patternsOption else 0)).bind
  have hbytes := readsBack_putAll
    (((out.putAll magic).putVersion version).put
      (if s.patterns.isSome then patternsOption else 0)) code
  rw [length_languageBytes hcode] at hbytes
  apply hbytes.bind
  apply (ReadsBack.check hlanguage _).bind
  apply (SortedTable.readsBack_write hs.grammemes.stores h₁).bind
  apply (readsBack_putVector o₁ (fourFields s.dataLayout.headerWidths[0]
    s.dataLayout.headerWidths[1] s.mapLayout.headerWidths[0] s.mapLayout.headerWidths[1])).bind
  apply (readsBack_putCount h₂).bind
  apply (StringMap.readsBack_write hwords h₃).bind
  apply (readsBack_putArray o₃ s.grammemeSets).bind
  apply (PackedArray.readsBack_write h₄).bind
  apply (SortedTable.readsBack_write hs.propertyNames h₅).bind
  apply (TrieTable.readsBack_write hstrings h₆).bind
  apply (PackedArray.readsBack_write h₇).bind
  simp only [patternsOption_set]
  -- what follows the branch is the same on both sides
  apply ReadsBack.ite_bind
  apply hpatterns.bind
  apply (ReadsBack.check (RecordLayout.ofHeader_twoFields hs.dataLayout) _).bind
  have hmapLayout := RecordLayout.ofHeader_threeFields
    ⟨hs.mapNames, hs.mapSpan.trans (by decide)⟩
  rw [← hs.entryCountWidth_eq, ← s.propertyNames.size_mappedForm] at hmapLayout
  apply (ReadsBack.check hmapLayout _).bind
  exact ReadsBack.pure _ _

theorem position_putAll {α : Type} [FixedInt α] (out : Writer) (as : List α) :
    (out.putAll as).position = out.position + as.length * FixedInt.size α := by
  rw [Writer.putAll, Writer.position_append, length_flatMap_toBytes]

theorem position_put {α : Type} [FixedInt α] (out : Writer) (a : α) :
    (out.put a).position = out.position + FixedInt.size α := by
  rw [Writer.put, Writer.position_append, FixedInt.length_toBytes]

/-- No stored tables are shorter than the start of a dictionary. -/
theorem minimumSize_le_of_write {s : WordStore} {l : Lexicon} {maps : List PropertyMap}
    {slots : List (List Int32)} {data : List UInt64} (hs : s.Stores l maps slots data)
    {out out' : Writer} (h : s.write out = .ok out') :
    out.position + minimumSize ≤ out'.position := by
  obtain ⟨names, values, hwords, -⟩ := hs.words
  obtain ⟨strings, hstrings⟩ := hs.propertyValues
  obtain ⟨code, hcode, h⟩ := Except.bind_eq_ok.1 h
  obtain ⟨o₁, h₁, h⟩ := Except.bind_eq_ok.1 h
  obtain ⟨o₂, h₂, h⟩ := Except.bind_eq_ok.1 h
  obtain ⟨o₃, h₃, h⟩ := Except.bind_eq_ok.1 h
  obtain ⟨o₄, h₄, h⟩ := Except.bind_eq_ok.1 h
  obtain ⟨o₅, h₅, h⟩ := Except.bind_eq_ok.1 h
  obtain ⟨o₆, h₆, h⟩ := Except.bind_eq_ok.1 h
  obtain ⟨o₇, h₇, h⟩ := Except.bind_eq_ok.1 h
  have hstart : (((out.putAll magic).putVersion version).put
      (if s.patterns.isSome then patternsOption else 0)).position = out.position + 20 := by
    rw [position_put, Writer.putVersion, position_put, position_put, position_putAll]
    rfl
  have hcodeEnd := (readsBack_putAll (((out.putAll magic).putVersion version).put
    (if s.patterns.isSome then patternsOption else 0)) code).grows.length_le
  have hpatterns : o₇.toList <+: out'.toList := by
    rcases hs.patterns with ⟨-, hnone⟩ | ⟨ps, pslots, -, hsome, hps⟩
    · rw [hnone] at h
      rw [Except.ok.inj h]
    · rw [hsome] at h
      obtain ⟨suffixSize, hread⟩ := PatternStore.readsBack_write hps h
      exact hread.grows
  -- every section begins where the one before it ended
  have hsections := calc o₁.toList
    _ <+: o₂.toList := (readsBack_putAll o₁ _).grows.trans (readsBack_putCount h₂).grows
    _ <+: o₃.toList := (StringMap.readsBack_write hwords h₃).grows
    _ <+: o₄.toList := (readsBack_putArray o₃ _).grows.trans (PackedArray.readsBack_write h₄).grows
    _ <+: o₅.toList := (SortedTable.readsBack_write hs.propertyNames h₅).grows
    _ <+: o₆.toList := (TrieTable.readsBack_write hstrings h₆).grows
    _ <+: o₇.toList := (PackedArray.readsBack_write h₇).grows
    _ <+: out'.toList := hpatterns
  have hgrammemes := (SortedTable.readsBack_write hs.grammemes.stores h₁).grows.length_le
  have hend := hsections.length_le
  simp only [Writer.length_toList] at hcodeEnd hgrammemes hend
  rw [minimumSize]
  omega

/-- The tables follow from the bytes that are read. -/
theorem local_read : Reader.Local read := by
  apply (Reader.local_readArray UInt8 magic.length).bind
  intro start
  apply Reader.Local.ite_throw
  apply (Reader.local_readVersion version).bind
  intro _
  apply (Reader.local_read Int16).bind
  intro options
  apply (Reader.local_readArray UInt8 languageLength).bind
  intro code
  apply (Reader.local_check _).bind
  intro language
  apply SortedTable.local_read.bind
  intro grammemes
  apply (Reader.local_readVector Int8 4).bind
  intro widths
  apply Reader.local_readCount.bind
  intro setCount
  apply StringMap.local_read.bind
  intro words
  apply (Reader.local_readPlainArray UInt64 setCount).bind
  intro grammemeSets
  apply PackedArray.local_read.bind
  intro sharedData
  apply SortedTable.local_read.bind
  intro propertyNames
  apply TrieTable.local_read.bind
  intro propertyValues
  apply PackedArray.local_read.bind
  intro propertyMaps
  apply (PatternStore.local_read.map some).ite_bind (Reader.local_pure none)
  intro patterns
  apply (Reader.local_check _).bind
  intro dataLayout
  exact (Reader.local_check _).bind fun _ => Reader.local_pure _

end WordStore

end Paradigm
