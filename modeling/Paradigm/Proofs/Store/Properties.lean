import Mathlib
import Paradigm.Proofs.Store.Words.Building

/-!
# The properties of stored words

The property map of a word leads to the values that its entry lists under a property, and to none
under any other.  Words that list the same values have the same map, and this is stored once.

## Main definitions

* `Lexicon.Word.values?`: the values of a property in the entry of a word
* `WordStore.mapPlace?`: where the property map of a word is stored

## Main results

* `WordStore.Stores.wordProperty?_eq`, `WordStore.Stores.wordProperty?_eq_none`: the values of
  properties of stored words
* `WordStore.Stores.share_map_iff`: which words share their maps
-/

namespace Paradigm

/-! ## Entries of words -/

namespace Lexicon.Word

/-- The values of a property: those that the entry of the word sets for it, or the patterns of the
word for the property that lists these.  A property without values is none. -/
def values? (w : Lexicon.Word) (property : String) : Option (List String) :=
  ((w.properties.get? property).filter (!·.isEmpty)).or
    (if property = inflectionProperty ∧ w.inflections ≠ [] then some w.inflections else none)

theorem lookup_listed (w : Lexicon.Word) (property : String) :
    w.listed.lookup property = w.values? property := by
  have hown : (w.properties.entries.filter (!·.2.isEmpty)).lookup property =
      (w.properties.get? property).filter (!·.isEmpty) := by
    have hnodup : (w.properties.entries.map Prod.fst).Nodup := w.properties.nodup_names
    ext values
    rw [lookup_eq_some_iff_mem (hnodup.sublist (List.filter_sublist.map _)), List.mem_filter,
      Option.filter_eq_some_iff, NameMap.get?, lookup_eq_some_iff_mem hnodup]
  rw [listed, List.lookup_append, hown, values?]
  congr 1
  by_cases hproperty : property = inflectionProperty
  · by_cases hnil : w.inflections = []
    · simp [hnil]
    · simp [hnil, hproperty]
  · by_cases hnil : w.inflections = []
    · simp [hnil]
    · simp [hnil, hproperty, List.lookup_cons, beq_eq_false_iff_ne.2 hproperty]

theorem mem_listed_iff {w : Lexicon.Word} (hreserved : inflectionProperty ∉ w.properties.names)
    {property : String} {values : List String} :
    (property, values) ∈ w.listed ↔ w.values? property = some values := by
  rw [← lookup_listed, lookup_eq_some_iff_mem (nodup_listed hreserved)]

end Lexicon.Word

namespace WordStore

variable {s : WordStore} {l : Lexicon} {maps : List PropertyMap} {slots : List (List Int32)}
  {data : List UInt64} {w e f : Lexicon.Word} {m : PropertyMap} {word property : String}
  {key id : Nat} {ids : List Nat}

/-! ## Values of properties -/

/-- The entries of a map are those of the listed properties. -/
theorem MapOf.mem_iff (h : s.MapOf l w m) (hnames : (sortedStrings l.propertyNames).Nodup) :
    (key, ids) ∈ m ↔ ∃ property values, (property, values) ∈ w.listed ∧
      (sortedStrings l.propertyNames)[key]? = some property ∧
        List.Forall₂ (fun value id => s.valueId? property value = some id) values ids := by
  obtain ⟨entries, hperm, hentries⟩ := h.entries
  rw [← hperm.mem_iff]
  constructor
  · intro hmem
    obtain ⟨j, hj, hget⟩ := List.mem_iff_getElem.1 hmem
    have hlisted : j < w.listed.length := hentries.length_eq ▸ hj
    obtain ⟨hkey, hids⟩ := hentries.get hlisted hj
    rw [List.get_eq_getElem, List.get_eq_getElem, hget] at hkey hids
    exact ⟨_, _, List.getElem_mem hlisted, hkey, hids⟩
  · rintro ⟨property, values, hmem, hkey, hids⟩
    obtain ⟨j, hlisted, hget⟩ := List.mem_iff_getElem.1 hmem
    have hj : j < entries.length := hentries.length_eq ▸ hlisted
    obtain ⟨hkey', hids'⟩ := hentries.get hlisted hj
    rw [List.get_eq_getElem, List.get_eq_getElem, hget] at hkey' hids'
    -- a name has one key and a value one identifier
    have hlt := (List.getElem?_eq_some_iff.1 hkey).1
    have hkeys : key = entries[j].1 := (List.getElem?_inj hlt hnames).1 (hkey.trans hkey'.symm)
    have hsame : ids = entries[j].2 := by
      refine List.right_unique_forall₂' ?_ hids hids'
      intro value id id' hid hid'
      exact Option.some.inj (hid.symm.trans hid')
    rw [hkeys, hsame]
    exact List.getElem_mem hj

namespace Stores

/-- The map of a word has a key exactly if the word lists values of the property. -/
theorem lookup_eq_some_iff (h : s.Stores l maps slots data) (hm : s.MapOf l w m)
    (hkey : s.propertyKey? property = some key) : m.lookup key = some ids ↔
      ∃ values, (property, values) ∈ w.listed ∧
        List.Forall₂ (fun value id => s.valueId? property value = some id) values ids := by
  have hname := h.propertyNames.identifier?_eq_some_iff.1 hkey
  rw [lookup_eq_some_iff_mem hm.nodup_keys, hm.mem_iff h.propertyNames.nodup]
  constructor
  · rintro ⟨property', values, hmem, hname', hids⟩
    obtain rfl := Option.some.inj (hname.symm.trans hname')
    exact ⟨values, hmem, hids⟩
  · rintro ⟨values, hmem, hids⟩
    exact ⟨property, values, hmem, hname, hids⟩

/-- The identifier of a value leads back to the value. -/
theorem propertyValue_eq_ok (h : s.Stores l maps slots data)
    (hkey : s.propertyKey? property = some key) {value : String}
    (hid : s.valueId? property value = some id) : s.propertyValue key id = .ok value := by
  obtain ⟨strings, hstrings⟩ := h.propertyValues
  have hstring : s.propertyValues.identifier? value = some id →
      s.propertyValues.string id = .ok value := (TrieTable.numbers hstrings).name_of_find?
  unfold valueId? at hid
  unfold propertyValue
  split at hid
  · -- a pattern is known by its name
    rename_i hpatterns
    rcases h.patterns with ⟨-, hnone⟩ | ⟨ps, pslots, -, hsome, hps⟩
    · rw [hnone] at hid
      cases hid
    · obtain ⟨names, -, hnumbering⟩ := hps.names
      rw [hpatterns] at hkey
      rw [hsome] at hid ⊢
      dsimp only
      rw [inflectionKey?, if_pos hkey]
      exact hnumbering.name_of_find? hid
  · -- other properties have other keys
    rename_i hne
    have hkeys : s.inflectionKey? ≠ some key := by
      intro hinflection
      exact hne (h.propertyNames.numbers.eq_of_find? hkey hinflection)
    split
    · rw [if_neg hkeys]
      exact hstring hid
    · exact hstring hid

/-- The values of a property of a word are those in its entry. -/
theorem wordProperty?_eq (h : s.Stores l maps slots data) (hw : w ∈ l.words)
    (hreserved : inflectionProperty ∉ w.properties.names) (property : String) :
    s.wordProperty? w.word property = .ok (w.values? property) := by
  cases hvalues : w.values? property with
  | some values =>
    obtain ⟨key, ids, hkey, hids, hall⟩ :=
      h.exists_propertyIds hw ((Lexicon.Word.mem_listed_iff hreserved).2 hvalues)
    have hstrings : ids.mapM (s.propertyValue key) = .ok values :=
      mapM_eq_ok_iff.2 (hall.flip.imp fun _ _ hid => h.propertyValue_eq_ok hkey hid)
    simp only [wordProperty?, hkey, hids, Except.ok_bind, hstrings]
    rfl
  | none =>
    obtain ⟨i, m, run, hi, hm, -, hmap, -⟩ := h.exists_map hw
    have hids := h.propertyIds?_eq hi hm
    -- the property has no key, or a key that the map of the word does not have
    cases hkey : s.propertyKey? property with
    | none => simp only [wordProperty?, hkey, Except.pure_eq_ok]
    | some key =>
      have hlookup : m.lookup key = none := by
        apply Option.eq_none_iff_forall_ne_some.2
        intro ids hfound
        obtain ⟨values, hmem, -⟩ := (h.lookup_eq_some_iff hmap hkey).1 hfound
        rw [(Lexicon.Word.mem_listed_iff hreserved).1 hmem] at hvalues
        cases hvalues
      simp only [wordProperty?, hkey, hids, hlookup, Except.ok_bind, Except.pure_eq_ok]

/-- Other strings have no properties. -/
theorem wordProperty?_eq_none (h : s.Stores l maps slots data)
    (hword : word ∉ l.words.map Lexicon.Word.word) (property : String) :
    s.wordProperty? word property = .ok none := by
  unfold wordProperty?
  split
  · rfl
  · rw [h.propertyIds?_eq_none hword]
    rfl

end Stores

/-! ## Shared maps -/

/-- Where the property map of a word is stored. -/
def mapPlace? (s : WordStore) (word : String) : Except StorageError (Option UInt64) := do
  match ← s.data? word with
  | none => return none
  | some data => return some (pairOf (← s.dataLayout.decode data)).2

/-- The identifiers of the values under a key in the map that is stored at a place. -/
def valuesAt? (s : WordStore) (place : UInt64) (key : Nat) :
    Except StorageError (Option (List Nat)) := do
  if place = 0 then return none
  let count := (← s.mapEntry place.toNat).entryCount
  s.findValues key place.toNat (place.toNat + count) count

theorem propertyIds?_eq_valuesAt? {place : UInt64} (h : s.mapPlace? word = .ok (some place))
    (key : Nat) : s.propertyIds? word key = s.valuesAt? place key := by
  obtain ⟨found, hfound, h⟩ := Except.bind_eq_ok.1 h
  cases found with
  | none => cases Except.ok.inj h
  | some data =>
    obtain ⟨record, hrecord, h⟩ := Except.bind_eq_ok.1 h
    obtain rfl := Option.some.inj (Except.ok.inj h)
    rw [propertyIds?, hfound, Except.ok_bind]
    simp only [hrecord, Except.ok_bind]
    rfl

/-- Words whose maps are stored at one place have the same properties. -/
theorem wordProperty?_congr {word' : String} {place : UInt64}
    (h : s.mapPlace? word = .ok (some place)) (h' : s.mapPlace? word' = .ok (some place))
    (property : String) : s.wordProperty? word property = s.wordProperty? word' property := by
  simp only [wordProperty?, propertyIds?_eq_valuesAt? h, propertyIds?_eq_valuesAt? h']

theorem placesOf_congr {runs : List (List Int32)} {i j : Nat} (h : runs[i]? = runs[j]?) :
    (placesOf runs)[i]? = (placesOf runs)[j]? := by
  simp only [placesOf, List.getElem?_map, h]

/-- Words that list the same values have the same map. -/
theorem MapOf.eq_of_values?_eq {m' : PropertyMap} (he : s.MapOf l e m) (hf : s.MapOf l f m')
    (hnames : (sortedStrings l.propertyNames).Nodup)
    (hreserved : inflectionProperty ∉ e.properties.names)
    (hreserved' : inflectionProperty ∉ f.properties.names)
    (hvalues : ∀ property, e.values? property = f.values? property) : m = m' := by
  refine eq_of_pairwise_of_mem_iff (fun a b hab hba => Nat.lt_asymm hab hba) he.sorted hf.sorted ?_
  rintro ⟨key, ids⟩
  rw [he.mem_iff hnames, hf.mem_iff hnames]
  simp only [Lexicon.Word.mem_listed_iff hreserved, Lexicon.Word.mem_listed_iff hreserved', hvalues]

namespace Stores

/-- The place of the map of a word. -/
theorem mapPlace?_eq (h : s.Stores l maps slots data) {i place : Nat} (hw : l.words[i]? = some w)
    (hplace : (placesOf slots)[i]? = some place) :
    s.mapPlace? w.word = .ok (some (.ofNat place)) := by
  obtain ⟨d, place', hd, hplace', hdecode⟩ := h.exists_data hw
  obtain rfl := Option.some.inj (hplace.symm.trans hplace')
  rw [mapPlace?, h.data?_eq hw hd, Except.ok_bind]
  simp only [hdecode, Except.ok_bind, pairOf_twoFields, Except.pure_eq_ok]

/-- Words share their map exactly if their entries list the same values. -/
theorem share_map_iff (h : s.Stores l maps slots data) (he : e ∈ l.words) (hf : f ∈ l.words)
    (hreserved : ∀ w ∈ l.words, inflectionProperty ∉ w.properties.names) :
    (∃ place, s.mapPlace? e.word = .ok (some place) ∧ s.mapPlace? f.word = .ok (some place)) ↔
      ∀ property, e.values? property = f.values? property := by
  constructor
  · rintro ⟨place, hplace, hplace'⟩ property
    have hsame := wordProperty?_congr hplace hplace' property
    rw [h.wordProperty?_eq he (hreserved e he), h.wordProperty?_eq hf (hreserved f hf)] at hsame
    exact Except.ok.inj hsame
  · intro hvalues
    obtain ⟨i, m, run, hi, -, hrun, hm, hslots⟩ := h.exists_map he
    obtain ⟨j, m', run', hj, -, hrun', hm', hslots'⟩ := h.exists_map hf
    -- equal maps have the same slots, and equal slots lie at one place
    obtain rfl : m = m' := hm.eq_of_values?_eq hm' h.propertyNames.nodup (hreserved e he)
      (hreserved f hf) hvalues
    obtain rfl : run = run' := Except.ok.inj (hslots.symm.trans hslots')
    have hplaces := placesOf_congr (hrun.trans hrun'.symm)
    obtain ⟨-, place, -, hplace, -⟩ := h.exists_data hi
    exact ⟨_, h.mapPlace?_eq hi hplace, h.mapPlace?_eq hj (hplaces.symm.trans hplace)⟩

end Stores

end WordStore

end Paradigm
