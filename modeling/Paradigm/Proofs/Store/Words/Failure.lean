import Mathlib
import Paradigm.Proofs.Store.Patterns.Failure
import Paradigm.Proofs.Store.Words.Building

/-!
# Failures to build and to store the tables of words

The names, values and patterns that words refer to are looked up in tables that were built from
them, so that only a pattern can be missing.  The records of words and of property maps are those
that their layouts were fitted to.

## Main results

* `PropertyMap.failsOnly_ofWord`: property maps
* `PropertyMap.failsOnly_slots`: their slots
* `WordStore.failsOnly_write`: the stored form of all tables
-/

namespace Paradigm

variable {l : Lexicon} {w : Lexicon.Word}

/-! ## Property maps -/

namespace PropertyMap

variable {names : SortedTable} {values : TrieTable} {patterns : Option PatternStore}
  {strings valueStrings : List String} {maps : List PropertyMap} {m : PropertyMap}
  {layout : RecordLayout 3}

theorem failsOnly_ownEntries {P : StorageError → Prop} {p : Properties}
    (hnames : StringTable.Numbers names strings) (hvalues : StringTable.Numbers values valueStrings)
    (hp : ∀ e ∈ p.entries, e.1 ∈ strings ∧ e.2 ⊆ valueStrings) :
    FailsOnly P (ownEntries names values p) := by
  apply FailsOnly.mapM
  intro e he
  obtain ⟨hname, hlist⟩ := hp e (List.mem_filter.1 he).1
  refine (FailsOnly.mapM fun value hvalue => .of_exists ?_).bind fun _ _ => ?_
  · exact StringTable.exists_require hvalues (hlist hvalue)
  · exact (FailsOnly.of_exists (StringTable.exists_require hnames hname)).bind fun _ _ => .ok _

/-- Of the patterns that a word lists, only those that there are not are refused. -/
theorem failsOnly_patternEntries (hw : w ∈ l.words) (hnames : StringTable.Numbers names strings)
    (hlisted : w.inflections ≠ [] → inflectionProperty ∈ strings)
    (hpatterns : ∀ name ∈ l.patterns.map Lexicon.Pattern.id,
      ∃ id, patterns.bind (·.identifier? name) = some id) :
    FailsOnly l.Refusal (patternEntries names patterns w.inflections) := by
  unfold patternEntries
  split
  · exact .ok []
  rename_i hne
  refine (FailsOnly.mapM fun name hname => ?_).bind fun ids _ => ?_
  · by_cases hknown : name ∈ l.patterns.map Lexicon.Pattern.id
    · obtain ⟨id, hid⟩ := hpatterns name hknown
      rw [hid]
      exact .ok id
    · split
      · exact .ok _
      · exact .error (.unknownPattern hw hname hknown)
  · have hmem := hlisted fun hnil => hne (List.isEmpty_iff.2 hnil)
    exact (FailsOnly.of_exists (StringTable.exists_require hnames hmem)).refusal.bind
      fun _ _ => .ok _

theorem failsOnly_ofWord (hw : w ∈ l.words)
    (hnames : StringTable.Numbers names (sortedStrings l.propertyNames))
    (hvalues : StringTable.Numbers values valueStrings)
    (hstrings : ∀ s, s ∈ valueStrings ↔ s ∈ l.propertyValues)
    (hpatterns : ∀ name ∈ l.patterns.map Lexicon.Pattern.id,
      ∃ id, patterns.bind (·.identifier? name) = some id) :
    FailsOnly l.Refusal (ofWord names values patterns w) := by
  refine (failsOnly_ownEntries hnames hvalues fun e he => ⟨?_, ?_⟩).refusal.bind fun own _ => ?_
  · rw [mem_sortedStrings]
    apply List.mem_append_left
    exact List.mem_flatMap.2 ⟨w, hw, List.mem_map_of_mem he⟩
  · intro value hvalue
    rw [hstrings]
    exact List.mem_flatMap.2 ⟨w, hw, List.mem_flatMap.2 ⟨e, he, hvalue⟩⟩
  refine (failsOnly_patternEntries hw hnames ?_ hpatterns).bind fun _ _ => .ok _
  intro hne
  have hany : l.words.any (!·.inflections.isEmpty) := by
    rw [List.any_eq_true]
    exact ⟨w, hw, by simpa using hne⟩
  rw [mem_sortedStrings]
  apply List.mem_append_right
  rw [if_pos hany]
  exact List.mem_singleton_self _

theorem failsOnly_layoutFor (names : SortedTable) (maps : List PropertyMap) :
    FailsOnly l.Refusal (layoutFor names maps) := by
  refine (RecordLayout.failsOnly_fitting (by decide) _).refusal.bind fun layout hlayout => ?_
  rw [liftM_eq_ok] at hlayout
  have hwithin := (RecordLayout.names_of_fitting hlayout).2
  exact (failsOnly_checkSlotWidth _ hwithin).bind fun _ _ => .ok _

/-! ### Lengths -/

theorem ne_nil_of_mem_listed {e : String × List String} (he : e ∈ w.listed) : e.2 ≠ [] := by
  rw [Lexicon.Word.listed, List.mem_append, List.mem_filter] at he
  rcases he with ⟨-, he⟩ | he
  · simpa using he
  · split at he
    · cases he
    · rename_i hne
      obtain rfl := List.mem_singleton.1 he
      exact fun hnil => hne (List.isEmpty_iff.2 hnil)

/-- There is an identifier for each value. -/
theorem length_values_eq {properties : List (String × List String)}
    (h : List.Forall₂ (EntryOf strings values patterns) properties m) :
    (m.flatMap Prod.snd).length = (properties.flatMap Prod.snd).length := by
  induction h with
  | nil => rfl
  | cons he _ ih =>
    rw [List.flatMap_cons, List.flatMap_cons, List.length_append, List.length_append, ih,
      he.2.length_eq]

/-- A map has keys below a limit, and no more values than another limit; no entry is without
values. -/
structure Bounded (m : PropertyMap) (keys values : Nat) : Prop where
  key_lt : ∀ e ∈ m, e.1 < keys
  ne_nil : ∀ e ∈ m, e.2 ≠ []
  nodup : (m.map Prod.fst).Nodup
  values_le : (m.flatMap Prod.snd).length ≤ values

namespace Bounded

variable {keys limit : Nat}

theorem length_le_keys (h : m.Bounded keys limit) : m.length ≤ keys := by
  -- different keys are different numbers below the limit
  have hsub : m.map Prod.fst ⊆ List.range keys := by
    intro key hkey
    obtain ⟨e, he, rfl⟩ := List.mem_map.1 hkey
    exact List.mem_range.2 (h.key_lt e he)
  simpa using (List.subperm_of_subset h.nodup hsub).length_le

theorem length_le_values (h : m.Bounded keys limit) : m.length ≤ (m.flatMap Prod.snd).length := by
  rw [List.length_flatMap, ← List.length_map (fun e : Nat × List Nat => e.2.length)]
  apply List.length_le_sum_of_one_le
  intro n hn
  obtain ⟨e, he, rfl⟩ := List.mem_map.1 hn
  exact List.length_pos_iff.2 (h.ne_nil e he)

theorem length_ids_le (h : m.Bounded keys limit) {e : Nat × List Nat} (he : e ∈ m) :
    e.2.length ≤ limit := by
  obtain ⟨i, hi⟩ := List.mem_iff_getElem?.1 he
  exact (WordStore.MapAt.length_le_flatMap hi).trans h.values_le

/-- The slots of a map are at most two for each value. -/
theorem length_slots_le (h : m.Bounded keys limit) {run : List Int32}
    (hrun : SlotsOf layout m run) : run.length ≤ 2 * limit := by
  have hlength := hrun.length_eq
  have hentries := h.length_le_values
  have hvalues := h.values_le
  omega

end Bounded

/-- The map of a word has keys in the table, and as many values as the word. -/
theorem bounded_of_ofWord (hnames : names.Stores strings)
    (hreserved : inflectionProperty ∉ w.properties.names)
    (h : ofWord names values patterns w = .ok m) :
    m.Bounded names.size (w.listed.flatMap Prod.snd).length := by
  obtain ⟨hsorted, entries, hperm, hall⟩ := ofWord_eq_ok hnames hreserved h
  have hentry : ∀ e ∈ m, e.1 < names.size ∧ e.2 ≠ [] := by
    intro e he
    obtain ⟨i, hi, rfl⟩ := List.mem_iff_getElem.1 (hperm.mem_iff.2 he)
    have hlisted : i < w.listed.length := hall.length_eq ▸ hi
    obtain ⟨hkey, hvalues⟩ := hall.get hlisted hi
    rw [hnames.size_eq]
    refine ⟨(List.getElem?_eq_some_iff.1 hkey).1, fun hnil => ?_⟩
    apply ne_nil_of_mem_listed (List.getElem_mem hlisted)
    rw [List.get_eq_getElem, List.get_eq_getElem, hnil] at hvalues
    exact List.forall₂_nil_right_iff.1 hvalues
  constructor
  case key_lt => exact fun e he => (hentry e he).1
  case ne_nil => exact fun e he => (hentry e he).2
  case nodup => exact Pairwise.nodup_of_irrefl Nat.lt_irrefl (List.pairwise_map.2 hsorted)
  case values_le =>
    rw [← (hperm.flatMap_right Prod.snd).length_eq]
    exact (length_values_eq hall).le

/-! ### Slots -/

/-- The slots of a map are refused only for values that they are too narrow for. -/
theorem failsOnly_slots {limit : Nat} (hlayout : layoutFor names maps = .ok layout)
    (hsize : names.size < addressLimit) (hlimit : limit < addressLimit)
    (hbounded : ∀ m ∈ maps, m.Bounded names.size limit) (hm : m ∈ maps) :
    FailsOnly l.Refusal (slots layout m) := by
  obtain ⟨fitting, hfitting, h⟩ := Except.bind_eq_ok.1 hlayout
  obtain ⟨u, hcheck, h⟩ := Except.bind_eq_ok.1 h
  obtain rfl := Except.ok.inj h
  rw [liftM_eq_ok] at hfitting
  have hentries : ∀ e ∈ maps.flatten, e.1 < addressLimit ∧ e.2.length < addressLimit := by
    intro e he
    obtain ⟨m', hm', he⟩ := List.mem_flatten.1 he
    have hbound := hbounded m' hm'
    exact ⟨(hbound.key_lt e he).trans hsize, (hbound.length_ids_le he).trans_lt hlimit⟩
  refine (failsOnly_encodeSlots fun record hrecord => ?_).refusal.bind fun _ _ => ?_
  · obtain ⟨⟨⟨key, ids⟩, i⟩, hmem, rfl⟩ := List.mem_map.1 hrecord
    obtain ⟨-, hget⟩ := List.mem_zipIdx' hmem
    have he : (key, ids) ∈ maps.flatten :=
      List.mem_flatten.2 ⟨m, hm, hget ▸ List.getElem_mem _⟩
    apply RecordLayout.exists_encode hfitting
    intro j hj
    rcases j with _ | _ | _ | j
    · exact ofNat_le_largest_map (f := Prod.fst) (fun e he => (hentries e he).1) he
    · exact ofNat_le_largest_map (f := fun e : Nat × List Nat => e.2.length)
        (fun e he => (hentries e he).2) he
    · apply ofNat_le_ofNat _ hsize
      split
      · exact (hbounded m hm).length_le_keys
      · exact Nat.zero_le _
    · omega
  · refine (FailsOnly.mapM fun id _ => ?_).bind fun _ _ => .ok _
    unfold valueSlot
    split
    · exact .ok _
    · exact .error (.fault nofun)

end PropertyMap

/-! ## The tables -/

namespace WordStore

theorem length_flatten_le_of_sublist {α : Type} {xs ys : List (List α)} (h : xs.Sublist ys) :
    xs.flatten.length ≤ ys.flatten.length := by
  rw [List.length_flatten, List.length_flatten]
  exact (h.map List.length).sum_le_sum fun _ _ => Nat.zero_le _

/-- The distinct maps take no more slots than all of them. -/
theorem length_mapSlots_le (runs : List (List Int32)) :
    (mapSlots runs).length ≤ runs.flatten.length + 1 := by
  rw [mapSlots, List.length_cons]
  apply Nat.succ_le_succ
  exact length_flatten_le_of_sublist ((eraseDups_sublist _).trans List.filter_sublist)

theorem lt_of_mem_placesOf {runs : List (List Int32)} {place : Nat} (h : place ∈ placesOf runs) :
    place < runs.flatten.length + 1 := by
  obtain ⟨i, hi, rfl⟩ := List.mem_iff_getElem.1 h
  have hrun : i < runs.length := by rwa [placesOf, List.length_map] at hi
  obtain ⟨place, hplace, hlt, -⟩ := getElem?_placesOf (List.getElem?_eq_getElem hrun)
  rw [List.getElem?_eq_getElem hi] at hplace
  rw [Option.some.inj hplace]
  exact hlt.trans_le (length_mapSlots_le runs)

theorem idxOf_setsOf_le (masks : List Mask) (mask : Mask) :
    (setsOf masks).idxOf mask ≤ masks.length + 1 :=
  List.idxOf_le_length.trans (length_eraseDups_le _)

/-- The data of a word are put into a data word: its set has no number above the greatest, and its
map no place behind the last. -/
theorem exists_encode_dataRecord {masks : List Mask} {runs : List (List Int32)}
    {layout : RecordLayout 2} (h : dataLayoutFor masks runs = .ok layout)
    (hmasks : masks.length + 1 < addressLimit) (hruns : runs.flatten.length + 1 ≤ addressLimit)
    {record : Vector UInt64 2} (hrecord : record ∈ dataRecords masks runs) :
    ∃ raw, layout.encode record = .ok raw := by
  obtain ⟨⟨mask, place⟩, hmem, rfl⟩ := List.mem_map.1 hrecord
  obtain ⟨hmask, hplace⟩ := List.of_mem_zip hmem
  apply RecordLayout.exists_encode h
  intro i hi
  rcases i with _ | _ | i
  · exact ofNat_le_largest_map (f := (setsOf masks).idxOf)
      (fun m _ => (idxOf_setsOf_le masks m).trans_lt hmasks) hmask
  · exact ofNat_le_largest (fun _ hp => (lt_of_mem_placesOf hp).trans_le hruns) hplace
  · omega

theorem length_dataRecords_le (masks : List Mask) (runs : List (List Int32)) :
    (dataRecords masks runs).length ≤ masks.length := by
  rw [dataRecords, List.length_map, List.length_zip]
  exact min_le_left _ _

theorem length_shared_le (width : Nat) (data : List UInt64) :
    (shareData width data).2.length ≤ data.length := by
  unfold shareData
  dsimp only
  split
  · exact length_eraseDups_le data
  · exact Nat.zero_le _

/-- No more data are shared than there are words. -/
theorem length_shared_le_words {words : List Lexicon.Word} {grammemes : SortedTable}
    {masks : List Mask} {runs : List (List Int32)} {layout : RecordLayout 2} {data : List UInt64}
    (hmasks : masksOf grammemes words = .ok masks)
    (hdata : encodeData layout (dataRecords masks runs) = .ok data) (width : Nat) :
    (shareData width data).2.length ≤ words.length := by
  have hshared := length_shared_le width data
  have hrecords := length_dataRecords_le masks runs
  rw [length_of_mapM_eq_ok hdata] at hshared
  rw [length_of_mapM_eq_ok hmasks] at hrecords
  exact hshared.trans hrecords

/-! ## The stored form -/

theorem length_encode_utf8 (s : String) :
    (Text.Encoding.utf8.encode s).length = s.utf8ByteSize := by
  have hbytes : s.toByteArray = (s.toList.flatMap String.utf8EncodeChar).toByteArray :=
    String.utf8Encode_toList.symm
  have hsize := congrArg ByteArray.size hbytes
  rw [List.size_toByteArray] at hsize
  exact hsize.symm

theorem exists_languageBytes {language : String} (h : language.utf8ByteSize ≤ languageLength) :
    ∃ code, languageBytes language = .ok code := by
  unfold languageBytes
  dsimp only
  rw [length_encode_utf8, if_neg (Nat.not_lt.2 h)]
  exact ⟨_, rfl⟩

/-- Tables are stored unless they have too many elements. -/
theorem failsOnly_write {s : WordStore} (hlanguage : s.language.utf8ByteSize ≤ languageLength)
    (out : Writer) : FailsOnly NoRoom (s.write out) := by
  refine (FailsOnly.of_exists (exists_languageBytes hlanguage)).bind fun _ _ => ?_
  refine (s.grammemes.failsOnly_write _).bind fun _ _ => ?_
  refine (failsOnly_putCount _ _).bind fun _ _ => ?_
  refine (s.words.failsOnly_write _).bind fun _ _ => ?_
  refine (s.sharedData.failsOnly_write _).bind fun _ _ => ?_
  refine (s.propertyNames.failsOnly_write _).bind fun _ _ => ?_
  refine (s.propertyValues.failsOnly_write _).bind fun _ _ => ?_
  refine (s.propertyMaps.failsOnly_write _).bind fun _ _ => ?_
  cases s.patterns with
  | none => exact .ok _
  | some patterns => exact patterns.failsOnly_write _

end WordStore

end Paradigm
