import Mathlib
import Paradigm.Proofs.Store.Patterns.Building
import Paradigm.Proofs.Store.Words

/-!
# The tables of a given lexicon

Tables that were built from a lexicon stand for it.

## Main results

* `Lexicon.check_eq_ok`: what is demanded of a lexicon
* `PropertyMap.ofWord_eq_ok`: the property map of a word lists its properties
* `WordStore.stores_of_ofLexicon`: the tables of a lexicon
-/

namespace Paradigm

/-! ## Demands on a lexicon -/

theorem Lexicon.checkWords_eq_ok {seen : List String} {words : List Lexicon.Word} {u : Unit}
    (h : checkWords seen words = .ok u) :
    ∀ w ∈ words, inflectionProperty ∉ w.properties.names := by
  induction words generalizing seen with
  | nil => simp
  | cons w ws ih =>
    rw [checkWords] at h
    split at h
    · cases h
    split at h
    · cases h
    · rename_i hreserved
      intro w' hw'
      rcases List.mem_cons.1 hw' with rfl | hw'
      · intro hmem
        exact hreserved (List.contains_iff_mem.2 hmem)
      · exact ih h w' hw'

/-- The language can be read as a locale, and no word sets the property that lists patterns. -/
theorem Lexicon.check_eq_ok {l : Lexicon} {u : Unit} (h : l.check = .ok u) :
    (∃ locale, Locale.parse l.language = .ok locale) ∧
      ∀ w ∈ l.words, inflectionProperty ∉ w.properties.names := by
  obtain ⟨u, hlanguage, hwords⟩ := Except.bind_eq_ok.1 h
  refine ⟨?_, checkWords_eq_ok hwords⟩
  unfold checkLanguage at hlanguage
  split at hlanguage
  · cases hlanguage
  split at hlanguage
  · rename_i locale hparse
    exact ⟨locale, hparse⟩
  · cases hlanguage

/-! ## Property maps -/

theorem NameMap.nodup_names {α : Type} (m : NameMap α) : m.names.Nodup := by
  rw [names, List.nodup_iff_pairwise_ne, List.pairwise_map]
  refine m.sorted.imp ?_
  intro a b hab heq
  rw [heq] at hab
  exact String.lt_irrefl _ hab

/-- The properties of a word are listed once each. -/
theorem Lexicon.Word.nodup_listed {w : Lexicon.Word}
    (hreserved : inflectionProperty ∉ w.properties.names) : (w.listed.map Prod.fst).Nodup := by
  have hsub : ((w.properties.entries.filter (!·.2.isEmpty)).map Prod.fst).Sublist
      w.properties.names := List.filter_sublist.map _
  rw [listed, List.map_append]
  split
  · rw [List.map_nil, List.append_nil]
    exact w.properties.nodup_names.sublist hsub
  · rw [List.map_singleton, List.nodup_append']
    refine ⟨w.properties.nodup_names.sublist hsub, List.nodup_singleton _, ?_⟩
    rw [List.disjoint_singleton]
    intro hmem
    exact hreserved (hsub.subset hmem)

namespace PropertyMap

variable {names : SortedTable} {values : TrieTable} {patterns : Option PatternStore}
  {strings : List String} {w : Lexicon.Word} {m : PropertyMap}

/-- An entry has the key of a property and the identifiers of its values. -/
def EntryOf (strings : List String) (values : TrieTable) (patterns : Option PatternStore)
    (p : String × List String) (e : Nat × List Nat) : Prop :=
  strings[e.1]? = some p.1 ∧ List.Forall₂ (fun value id =>
    (if p.1 = inflectionProperty then patterns.bind (·.identifier? value)
      else values.identifier? value) = some id) p.2 e.2

theorem forall₂_of_ownEntries (hnames : names.Stores strings)
    (hreserved : inflectionProperty ∉ w.properties.names)
    (h : ownEntries names values w.properties = .ok m) :
    List.Forall₂ (EntryOf strings values patterns) (w.properties.entries.filter (!·.2.isEmpty))
      m := by
  have hall := mapM_eq_ok_iff.1 h
  rw [List.forall₂_iff_get] at hall ⊢
  refine ⟨hall.1, fun i hp he => ?_⟩
  obtain ⟨ids, hids, hentry⟩ := Except.bind_eq_ok.1 (hall.2 i hp he)
  obtain ⟨key, hkey, hentry⟩ := Except.bind_eq_ok.1 hentry
  rw [← Except.ok.inj hentry]
  have hmem := (List.mem_filter.1 (List.get_mem _ ⟨i, hp⟩)).1
  generalize hproperty : (w.properties.entries.filter (!·.2.isEmpty)).get ⟨i, hp⟩ = p at *
  -- the values of these properties are strings, and not patterns
  have hne : p.1 ≠ inflectionProperty := by
    intro heq
    exact hreserved (heq ▸ List.mem_map_of_mem hmem)
  refine ⟨hnames.identifier?_eq_some_iff.1 (StringTable.require_eq_ok.1 hkey), ?_⟩
  refine (mapM_eq_ok_iff.1 hids).imp ?_
  intro value id hid
  rw [if_neg hne]
  exact StringTable.require_eq_ok.1 hid

theorem forall₂_of_patternEntries (hnames : names.Stores strings)
    (h : patternEntries names patterns w.inflections = .ok m) :
    List.Forall₂ (EntryOf strings values patterns)
      (if w.inflections.isEmpty then [] else [(inflectionProperty, w.inflections)]) m := by
  unfold patternEntries at h
  split at h
  · rename_i hempty
    rw [if_pos hempty, ← Except.ok.inj h]
    exact .nil
  · rename_i hempty
    obtain ⟨ids, hids, h⟩ := Except.bind_eq_ok.1 h
    obtain ⟨key, hkey, h⟩ := Except.bind_eq_ok.1 h
    rw [liftM_eq_ok] at hkey
    rw [if_neg hempty, ← Except.ok.inj h]
    refine .cons ⟨hnames.identifier?_eq_some_iff.1 (StringTable.require_eq_ok.1 hkey), ?_⟩ .nil
    refine (mapM_eq_ok_iff.1 hids).imp ?_
    intro name id hid
    rw [if_pos rfl]
    split at hid
    · rename_i found hfound
      rw [hfound, Except.ok.inj hid]
    · cases hid

/-- Different properties have different keys. -/
theorem nodup_keys {properties : List (String × List String)} {entries : PropertyMap}
    (hdistinct : (properties.map Prod.fst).Nodup)
    (h : List.Forall₂ (EntryOf strings values patterns) properties entries) :
    (entries.map Prod.fst).Nodup := by
  rw [List.nodup_iff_pairwise_ne, List.pairwise_map, List.pairwise_iff_getElem] at hdistinct ⊢
  intro i j hi hj hij heq
  have hlength := h.length_eq
  have hpi := (h.get (by omega) hi).1
  have hpj := (h.get (by omega) hj).1
  rw [List.get_eq_getElem, List.get_eq_getElem] at hpi hpj
  rw [heq, hpj] at hpi
  exact hdistinct i j (by omega) (by omega) hij (Option.some.inj hpi).symm

/-- The property map of a word lists its properties in the order of their keys. -/
theorem ofWord_eq_ok (hnames : names.Stores strings)
    (hreserved : inflectionProperty ∉ w.properties.names)
    (h : ofWord names values patterns w = .ok m) : m.Pairwise (·.1 < ·.1) ∧
      ∃ entries : PropertyMap, entries.Perm m ∧
        List.Forall₂ (EntryOf strings values patterns) w.listed entries := by
  obtain ⟨own, hown, h⟩ := Except.bind_eq_ok.1 h
  obtain ⟨listed, hlisted, h⟩ := Except.bind_eq_ok.1 h
  have hm := Except.ok.inj h
  rw [liftM_eq_ok] at hown
  have hentries : List.Forall₂ (EntryOf strings values patterns) w.listed (own ++ listed) :=
    List.rel_append (forall₂_of_ownEntries hnames hreserved hown)
      (forall₂_of_patternEntries hnames hlisted)
  have hperm : (own ++ listed).Perm m := hm ▸ (List.mergeSort_perm _ _).symm
  refine ⟨?_, own ++ listed, hperm, hentries⟩
  have hkeys := nodup_keys (Lexicon.Word.nodup_listed hreserved) hentries
  have hnodup : (m.map Prod.fst).Nodup := (hperm.map Prod.fst).nodup_iff.1 hkeys
  -- the entries are sorted by their keys
  have hle : m.Pairwise fun a b => a.1 ≤ b.1 := by
    rw [← hm]
    refine (List.pairwise_mergeSort ?_ ?_ _).imp of_decide_eq_true
    · intro a b c hab hbc
      exact decide_eq_true ((of_decide_eq_true hab).trans (of_decide_eq_true hbc))
    · intro a b
      rw [Bool.or_eq_true, decide_eq_true_iff, decide_eq_true_iff]
      exact Nat.le_total _ _
  rw [List.nodup_iff_pairwise_ne, List.pairwise_map] at hnodup
  exact (hle.and hnodup).imp fun ⟨hle, hne⟩ => Nat.lt_of_le_of_ne hle hne

end PropertyMap

/-! ## The tables -/

namespace WordStore

variable {l : Lexicon} {s : WordStore}

theorem storesPatterns_of_ofPatterns? (hin : l.GrammemesIn s.grammemes)
    (h : PatternStore.ofPatterns? s.grammemes l.patterns l.suffixIndex = .ok s.patterns) :
    s.StoresPatterns l := by
  rcases PatternStore.ofPatterns?_eq_ok h with ⟨hnil, hnone⟩ |
    ⟨ps, store, slots, hne, hsome, hps, hstores, -⟩
  · exact Or.inl ⟨hnil, hnone⟩
  · obtain rfl := hin.ofPatterns_eq hps
    exact Or.inr ⟨store, slots, hne, hsome, hstores⟩

theorem indexes_of_ofPatterns? (hin : l.GrammemesIn s.grammemes)
    (h : PatternStore.ofPatterns? s.grammemes l.patterns l.suffixIndex = .ok s.patterns) :
    ∀ ps, s.patterns = some ps → ps.Indexes l.suffixIndex (l.patterns.map l.resolved) := by
  intro store hstore
  rcases PatternStore.ofPatterns?_eq_ok h with ⟨-, hnone⟩ |
    ⟨ps, store', slots, -, hsome, hps, -, hindex⟩
  · rw [hstore] at hnone
    cases hnone
  · obtain rfl := hin.ofPatterns_eq hps
    obtain rfl := Option.some.inj (hstore.symm.trans hsome)
    exact hindex

theorem mapsOf_of_mapM_ofWord {maps : List PropertyMap}
    (hnames : s.propertyNames.Stores (sortedStrings l.propertyNames))
    (hreserved : ∀ w ∈ l.words, inflectionProperty ∉ w.properties.names)
    (h : l.words.mapM (PropertyMap.ofWord s.propertyNames s.propertyValues s.patterns) =
      .ok maps) : List.Forall₂ (s.MapOf l) l.words maps := by
  have hall := mapM_eq_ok_iff.1 h
  rw [List.forall₂_iff_get] at hall ⊢
  refine ⟨hall.1, fun i hw hm => ?_⟩
  have hword := hreserved _ (List.get_mem l.words ⟨i, hw⟩)
  obtain ⟨hsorted, hentries⟩ := PropertyMap.ofWord_eq_ok hnames hword (hall.2 i hw hm)
  exact ⟨hsorted, hentries⟩

/-- Tables are built only from a lexicon that meets the demands. -/
theorem check_of_ofLexicon (h : ofLexicon l = .ok s) : ∃ u, l.check = .ok u := by
  unfold ofLexicon at h
  dsimp only at h
  split at h
  · cases h
  rename_i hcheck
  exact exists_eq_ok_of_ne_error hcheck

/-- Tables that were built from a lexicon stand for it, and its language can be read. -/
theorem stores_of_ofLexicon (h : ofLexicon l = .ok s) :
    s.language = l.language ∧ (∃ locale, Locale.parse l.language = .ok locale) ∧
      ∃ maps slots data, s.Stores l maps slots data := by
  obtain ⟨u, hcheck⟩ := check_of_ofLexicon h
  obtain ⟨hlocale, hreserved⟩ := Lexicon.check_eq_ok hcheck
  unfold ofLexicon at h
  dsimp only at h
  rw [hcheck] at h
  -- the tables in the order in which they are built
  obtain ⟨grammemes, hgrammemes, h⟩ := Except.bind_eq_ok.1 h
  obtain ⟨patterns, hpatterns, h⟩ := Except.bind_eq_ok.1 h
  obtain ⟨names, hnames, h⟩ := Except.bind_eq_ok.1 h
  obtain ⟨values, hvalues, h⟩ := Except.bind_eq_ok.1 h
  obtain ⟨maps, hmaps, h⟩ := Except.bind_eq_ok.1 h
  obtain ⟨mapLayout, hmapLayout, h⟩ := Except.bind_eq_ok.1 h
  obtain ⟨slots, hslots, h⟩ := Except.bind_eq_ok.1 h
  obtain ⟨masks, hmasks, h⟩ := Except.bind_eq_ok.1 h
  obtain ⟨dataLayout, hdataLayout, h⟩ := Except.bind_eq_ok.1 h
  obtain ⟨data, hdata, h⟩ := Except.bind_eq_ok.1 h
  obtain ⟨width, hwidth, h⟩ := Except.bind_eq_ok.1 h
  obtain ⟨words, hwords, h⟩ := Except.bind_eq_ok.1 h
  obtain ⟨shared, hshared, h⟩ := Except.bind_eq_ok.1 h
  obtain ⟨array, harray, h⟩ := Except.bind_eq_ok.1 h
  obtain rfl := Except.ok.inj h
  rw [liftM_eq_ok] at hnames hvalues hdataLayout hdata hwords hshared harray
  have hdataFields := RecordLayout.names_of_fitting hdataLayout
  obtain rfl : RecordLayout.span dataLayout.widths.toList = width := by
    rw [RecordLayout.totalWidth_eq_ok hdataFields.2] at hwidth
    exact Except.ok.inj hwidth
  have hin := Lexicon.grammemesIn_of_grammemeTable hgrammemes
  have hstores := SortedTable.stores_of_ofList hnames
  obtain ⟨hmapNames, hentryCount, hspan⟩ := PropertyMap.layoutFor_eq_ok hmapLayout
  obtain ⟨keys, words', hwordStores, hperm⟩ := StringMap.stores_of_ofList hwords
  obtain rfl : masks = l.wordMasks :=
    eq_map_of_mapM_eq_ok hmasks fun _ _ _ hmask => hin.mask_eq hmask
  refine ⟨rfl, hlocale, maps, slots, data, ?_⟩
  constructor
  case grammemes => exact hin
  case sets => rfl
  case patterns => exact storesPatterns_of_ofPatterns? hin hpatterns
  case suffixIndex => exact indexes_of_ofPatterns? hin hpatterns
  case propertyNames => exact hstores
  case keys_bound =>
    exact (SortedTable.length_sortedStrings_le hnames).trans_lt (by decide)
  case propertyValues => exact ⟨_, TrieTable.stores_of_ofList hvalues⟩
  case mapsOf => exact mapsOf_of_mapM_ofWord hstores hreserved hmaps
  case mapNames => exact hmapNames
  case mapSpan => exact hspan
  case entryCountWidth => exact hentryCount
  case slots_eq => exact mapM_eq_ok_iff.1 hslots
  case propertyMaps => exact PackedArray.holds_ofList harray
  case maps_bound => exact PackedArray.lt_addressLimit_of_ofList harray
  case dataLayout => exact hdataFields
  case encoded => exact mapM_eq_ok_iff.1 hdata
  case words => exact ⟨keys, words', hwordStores, hperm⟩
  case words_bound =>
    have hmasksLength : l.wordMasks.length = l.words.length := List.length_map ..
    have hslotsLength : l.wordMasks.length = slots.length := by
      rw [hmasksLength, length_of_mapM_eq_ok hslots, length_of_mapM_eq_ok hmaps]
    have hlength := StringMap.lt_addressLimit_of_ofList hwords
    rwa [List.length_zip, length_shareData, List.length_map, length_of_mapM_eq_ok hdata,
      length_dataRecords hslotsLength, hmasksLength, Nat.min_self] at hlength
  case sharedData => exact PackedArray.holds_ofList hshared
  case sharedData_isEmpty => exact PackedArray.isEmpty_ofList hshared
  case shared_bound => exact PackedArray.lt_addressLimit_of_ofList hshared

end WordStore

end Paradigm
