import Mathlib
import Paradigm.Dictionary
import Paradigm.Proofs.Store.Image
import Paradigm.Proofs.Store.Properties

/-!
# Dictionaries of lexicons

The dictionary that a lexicon is compiled to can be loaded, and its tables stand for the lexicon.
All answers about words and patterns are read off the lexicon from there.

## Main results

* `Dictionary.stores_of_compile`: what is loaded from a compiled lexicon
* `Dictionary.load_compile_words`: the words of a compiled lexicon with their grammemes
* `Dictionary.load_compile_properties`: the properties of the words of a compiled lexicon
* `Dictionary.load_compile_patterns`: the patterns of a compiled lexicon
* `Dictionary.load_compile_suffixIndex`: its patterns by the suffixes of their forms
* `Dictionary.write_load_compile`: a compiled lexicon is written again as it was read
* `Dictionary.load_decidedBy`: files that are cut
-/

namespace Paradigm

namespace Dictionary

/-- The dictionary that is loaded from a compiled lexicon has the tables in the file. -/
theorem exists_load_of_compile {l : Lexicon} {image : View} (h : l.compile = .ok image) :
    ∃ d, Dictionary.load image = .ok d ∧ l.CompiledTo image d.store := by
  obtain ⟨s, hs⟩ := Lexicon.exists_compiledTo h
  obtain ⟨locale, hlocale⟩ := hs.locale
  refine ⟨⟨locale, s⟩, ?_, hs⟩
  simp only [load, hs.load_eq_ok, Except.ok_bind, hlocale]
  rfl

/-- A file on disk holds the same dictionary as its bytes in memory. -/
theorem ofFile_readable {image : View} {d : Dictionary} (h : Dictionary.load image = .ok d) :
    Dictionary.ofFile (.readable image.bytes) = .ok d := by
  obtain ⟨s, hs, h⟩ := Except.bind_eq_ok.1 h
  have hmapped : WordStore.load ⟨image.bytes, true⟩ = .ok s := WordStore.load_congr hs rfl
  show Dictionary.load ⟨image.bytes, true⟩ = .ok d
  rw [load, hmapped]
  exact h

/-- What is loaded from a compiled lexicon stands for the lexicon. -/
theorem stores_of_compile {l : Lexicon} {image : View} (h : l.compile = .ok image) :
    ∃ d maps slots data, Dictionary.load image = .ok d ∧ d.store.Stores l maps slots data := by
  obtain ⟨d, hload, hd⟩ := exists_load_of_compile h
  obtain ⟨maps, slots, data, hstores⟩ := hd.stores
  exact ⟨d, maps, slots, data, hload, hstores⟩

/-! ## Answers about words -/

section Answers

variable {d : Dictionary} {l : Lexicon} {maps : List PropertyMap} {slots : List (List Int32)}
  {data : List UInt64} {names : List String} {e : Lexicon.Word}

/-- Names that are all known have a set. -/
theorem resolve_eq_ok_of_known (h : ∀ name ∈ names, (d.store.grammeme? name).isSome) :
    d.resolve names = .ok (d.store.knownGrammemes names) := by
  have hknown : names.filter (fun name => (d.store.grammeme? name).isNone) = [] := by
    rw [List.filter_eq_nil_iff]
    intro name hname
    rw [Option.isNone_eq_false_iff.2 (h name hname)]
    exact Bool.false_ne_true
  rw [resolve, hknown]

theorem resolveEach_nil (d : Dictionary) : d.resolveEach [] = .ok [] := rfl

theorem isSome_grammeme? (h : d.store.Stores l maps slots data) (hnames : names ⊆ l.grammemeNames) :
    ∀ name ∈ names, (d.store.grammeme? name).isSome := by
  intro name hname
  rw [h.grammeme?_eq (hnames hname)]
  rfl

theorem resolve_eq_ok (h : d.store.Stores l maps slots data) (hnames : names ⊆ l.grammemeNames) :
    d.resolve names = .ok (l.maskOf names) := by
  rw [resolve_eq_ok_of_known (isSome_grammeme? h hnames)]
  exact congrArg Except.ok (h.knownGrammemes_eq hnames)

theorem resolveEach_eq_ok (h : d.store.Stores l maps slots data)
    (hnames : names ⊆ l.grammemeNames) :
    d.resolveEach names = .ok (names.map fun name => l.maskOf [name]) := by
  apply mapM_eq_ok_map
  intro name hname
  apply resolve_eq_ok h
  rintro other (_ | ⟨_, ⟨⟩⟩)
  exact hnames hname

/-- A word of the lexicon that has grammemes is found as it is written. -/
theorem grammemes?_eq_ok (h : d.store.Stores l maps slots data) (he : e ∈ l.words)
    (hne : e.grammemes ≠ []) : d.grammemes? e.word = .ok (some (l.maskOf e.grammemes)) := by
  have hzero : l.maskOf e.grammemes ≠ 0 := by
    rw [Ne, h.grammemes.maskOf_eq_zero (Lexicon.grammemes_subset he)]
    exact hne
  have hwritten : d.writtenGrammemes? e.word = .ok (some (l.maskOf e.grammemes)) := by
    rw [writtenGrammemes?, h.wordGrammemes?_eq he, if_neg hne, Except.map_ok]
    exact congrArg Except.ok (Option.filter_some_pos (bne_iff_ne.2 hzero))
  rw [grammemes?, hwritten]
  rfl

/-- The patterns of a word are those that its entry names, in this order. -/
theorem patternsForWord_eq_ok (h : d.store.Stores l maps slots data) (he : e ∈ l.words)
    (hne : e.inflections ≠ []) : ∃ s vs, d.store.patterns = some s ∧
      d.patternsForWord s e.word = .ok vs ∧ List.Forall₂ (fun name v =>
        ∀ p ∈ l.patterns, p.id = name → s.Shows (l.resolved p) v) e.inflections vs := by
  obtain ⟨key, ids, hkey, hids, hall⟩ := h.exists_patternIds he hne
  have hpatternIds : d.patternIds? e.word = .ok (some ids) := by
    rw [patternIds?, hkey]
    show (d.store.propertyIds? e.word key >>= _) = _
    rw [hids]
    rfl
  rcases h.patterns with ⟨-, hnone⟩ | ⟨s, pslots, -, hsome, hs⟩
  · -- without tables of patterns no name of one has an identifier
    rw [hnone] at hall
    cases hnames : e.inflections with
    | nil => exact absurd hnames hne
    | cons name names =>
      rw [hnames] at hall
      obtain _ | ⟨hid, -⟩ := hall
      cases hid
  have hviews : List.Forall₂ (fun name id => ∃ v, s.pattern id = .ok v ∧
      ∀ p ∈ l.patterns, p.id = name → s.Shows (l.resolved p) v) e.inflections ids := by
    refine hall.imp ?_
    intro name id hid
    rw [hsome] at hid
    obtain ⟨v, hv, hshows⟩ := hs.pattern_eq_ok hid
    exact ⟨v, hv, fun p hp => hshows _ (List.mem_map_of_mem hp)⟩
  obtain ⟨vs, hvs, hshown⟩ := exists_mapM_eq_ok hviews
  refine ⟨s, vs, hsome, ?_, hshown⟩
  rw [patternsForWord, hpatternIds]
  exact hvs

end Answers

/-- Every pattern of a compiled lexicon is shown by its tables. -/
theorem exists_shows_of_compile {l : Lexicon} {image : View} (h : l.compile = .ok image)
    {p : Lexicon.Pattern} (hp : p ∈ l.patterns) : ∃ d s v, Dictionary.load image = .ok d ∧
      d.store.patterns = some s ∧ s.Shows (l.resolved p) v := by
  obtain ⟨d, maps, slots, data, hload, hstores⟩ := stores_of_compile h
  rcases hstores.patterns with ⟨hnil, -⟩ | ⟨s, pslots, -, hsome, hs⟩
  · rw [hnil] at hp
    cases hp
  · obtain ⟨v, hv⟩ := hs.shows (List.mem_map_of_mem hp)
    exact ⟨d, s, v, hload, hsome, hv⟩

/-! ## A lexicon of one word -/

/-- The lexicon of a cat. -/
def catLexicon : Lexicon where
  language := "en"
  words := [⟨"cat", ["noun", "singular"], .empty, ["regular"]⟩]
  patterns := [⟨"regular", ["noun"], 1, [""], [⟨"", ["singular"]⟩, ⟨"s", ["plural"]⟩]⟩]
  suffixIndex := false

theorem exists_compile_catLexicon : ∃ image, catLexicon.compile = .ok image := by
  let names := "noun\x00plural\x00singular\x00".toList.map fun c => UInt16.ofNat c.toNat
  -- the order of the names is evaluated first, since the kernel does not unfold the sort
  have htable : catLexicon.grammemeTable = .ok ⟨.ofList [4, 1286, 3080], .ofList names⟩ := by
    cbv
  apply exists_eq_ok_of_isOk
  unfold Lexicon.compile WordStore.ofLexicon
  rw [htable]
  decide +kernel

/-! ## Words -/

/-- **Every compiled lexicon can be loaded, and its words have their grammemes back.**  A word of
the lexicon has the set of its grammemes, where the bit of a grammeme is its rank among all names of
the lexicon, and none if it names none.  No other string has grammemes.  The words are listed once
each. -/
theorem load_compile_words {l : Lexicon} {image : View} (h : l.compile = .ok image) :
    ∃ d, Dictionary.load image = .ok d ∧
      (∀ e ∈ l.words, d.store.wordGrammemes? e.word =
        .ok (if e.grammemes = [] then none else some (Mask.union
          (e.grammemes.map fun name => (1 : Mask) <<< UInt64.ofNat (l.grammemeRank name))))) ∧
      (∀ name ∈ l.grammemeNames, l.grammemeRank name < 64) ∧
      (∀ word, word ∉ l.words.map Lexicon.Word.word → d.store.wordGrammemes? word = .ok none) ∧
      (l.words.map Lexicon.Word.word).Nodup ∧
      (∃ words : List String, d.store.allWords = words.map .ok ∧
        words.Perm (l.words.map Lexicon.Word.word)) ∧
      d.store.size = l.words.length := by
  obtain ⟨d, maps, slots, data, hload, hstores⟩ := stores_of_compile h
  obtain ⟨names, values, hwords, hperm⟩ := hstores.names
  refine ⟨d, hload, ?_, ?_, ?_, ?_, hstores.allWords_perm, hstores.size_eq⟩
  · intro e he
    exact hstores.wordGrammemes?_eq he
  · intro name hname
    exact hstores.grammemes.grammemeRank_lt hname
  · intro word hword
    exact hstores.wordGrammemes?_eq_none hword
  · exact hperm.nodup_iff.1 hwords.numbering.nodup

theorem load_compile_words_cat : ∃ image d, catLexicon.compile = .ok image ∧
    Dictionary.load image = .ok d ∧ d.store.wordGrammemes? "cat" = .ok (some 5) ∧
      d.store.wordGrammemes? "dog" = .ok none ∧ d.store.size = 1 := by
  obtain ⟨image, himage⟩ := exists_compile_catLexicon
  obtain ⟨d, hload, hwords, -, hothers, -, -, hsize⟩ := load_compile_words himage
  refine ⟨image, d, himage, hload, ?_, hothers "dog" (by decide), hsize⟩
  rw [hwords ⟨"cat", ["noun", "singular"], .empty, ["regular"]⟩ (by decide)]
  decide +kernel

/-! ## Properties -/

/-- **The words of every compiled lexicon have their properties back.**  A word of the lexicon has
the values that its entry sets for a property, and its patterns under the property that lists these,
both in the order and with the repetitions of the lexicon; a property without values is none, and no
other string has properties.  Two words share the stored map of their properties exactly if they
have the same values under all properties. -/
theorem load_compile_properties {l : Lexicon} {image : View} (h : l.compile = .ok image) :
    ∃ d, Dictionary.load image = .ok d ∧
      (∀ e ∈ l.words, ∀ property, d.store.wordProperty? e.word property =
        .ok (e.values? property)) ∧
      (∀ word property, word ∉ l.words.map Lexicon.Word.word →
        d.store.wordProperty? word property = .ok none) ∧
      ∀ e ∈ l.words, ∀ f ∈ l.words,
        (∃ place, d.store.mapPlace? e.word = .ok (some place) ∧
          d.store.mapPlace? f.word = .ok (some place)) ↔
          ∀ property, e.values? property = f.values? property := by
  obtain ⟨d, hload, hd⟩ := exists_load_of_compile h
  obtain ⟨maps, slots, data, hstores⟩ := hd.stores
  refine ⟨d, hload, ?_, ?_, ?_⟩
  · intro e he
    exact hstores.wordProperty?_eq he (hd.reserved_not_mem e he)
  · intro word property hword
    exact hstores.wordProperty?_eq_none hword property
  · intro e he f hf
    exact hstores.share_map_iff he hf hd.reserved_not_mem

/-- The lexicon of two flowers with the same colours. -/
def flowerLexicon : Lexicon where
  language := "en"
  words := [⟨"rose", [], NameMap.empty.insert "colour" ["red", "white", "red"], []⟩,
    ⟨"aster", [], NameMap.empty.insert "colour" ["red", "white", "red"], []⟩]
  patterns := []
  suffixIndex := false

theorem exists_compile_flowerLexicon : ∃ image, flowerLexicon.compile = .ok image := by
  let names := "colour\x00".toList.map fun c => UInt16.ofNat c.toNat
  -- as above, the names are sorted outside the kernel
  have htable : SortedTable.ofList flowerLexicon.propertyNames =
      .ok ⟨.ofList [6], .ofList names⟩ := by
    cbv
  apply exists_eq_ok_of_isOk
  unfold Lexicon.compile WordStore.ofLexicon
  rw [htable]
  decide +kernel

theorem load_compile_properties_flowers : ∃ image d place, flowerLexicon.compile = .ok image ∧
    Dictionary.load image = .ok d ∧
      d.store.wordProperty? "rose" "colour" = .ok (some ["red", "white", "red"]) ∧
      d.store.wordProperty? "rose" "inflection" = .ok none ∧
      d.store.wordProperty? "red" "colour" = .ok none ∧
      d.store.mapPlace? "rose" = .ok (some place) ∧
      d.store.mapPlace? "aster" = .ok (some place) := by
  obtain ⟨image, himage⟩ := exists_compile_flowerLexicon
  obtain ⟨d, hload, hwords, hothers, hshare⟩ := load_compile_properties himage
  have hrose : (⟨"rose", [], NameMap.empty.insert "colour" ["red", "white", "red"], []⟩ :
      Lexicon.Word) ∈ flowerLexicon.words := List.mem_cons_self
  have haster : (⟨"aster", [], NameMap.empty.insert "colour" ["red", "white", "red"], []⟩ :
      Lexicon.Word) ∈ flowerLexicon.words := List.mem_cons_of_mem _ List.mem_cons_self
  obtain ⟨place, hplace, hplace'⟩ := (hshare _ hrose _ haster).2 fun property => rfl
  refine ⟨image, d, place, himage, hload, ?_, ?_, hothers "red" "colour" (by decide), hplace,
    hplace'⟩
  · rw [hwords _ hrose]
    decide +kernel
  · rw [hwords _ hrose]
    decide +kernel

/-! ## Patterns -/

/-- **The patterns of every compiled lexicon are found again by their names.**  A pattern has its
name, parts of speech, frequency, suffixes of dictionary forms and forms back, in the order and with
the repetitions of the lexicon; its dictionary forms are the forms with one of these suffixes.  No
other name has a pattern. -/
theorem load_compile_patterns {l : Lexicon} {image : View} (h : l.compile = .ok image) :
    ∃ d, Dictionary.load image = .ok d ∧ (d.store.patterns = none ↔ l.patterns = []) ∧
      ∀ s, d.store.patterns = some s → s.size = l.patterns.length ∧
        (∀ p ∈ l.patterns, ∃ v forms, s.patternNamed? p.id = .ok (some v) ∧
          s.name v.id = .ok p.id ∧ v.partsOfSpeech = l.maskOf p.pos ∧
          s.frequency v.record.frequencyIndex = .ok p.frequency ∧
          s.lemmaSuffixes v = .ok p.lemmaSuffixes ∧ s.inflections v = .ok forms ∧
          forms.map (fun i => (i.pattern, i.suffix, i.grammemes)) =
            p.forms.map (fun f => (v, f.suffix, l.maskOf f.grammemes)) ∧
          s.lemmaMatches v = .ok (forms.filter fun i => p.lemmaSuffixes.contains i.suffix)) ∧
        ∀ name, name ∉ l.patterns.map Lexicon.Pattern.id → s.patternNamed? name = .ok none := by
  obtain ⟨d, maps, slots, data, hload, hstores⟩ := stores_of_compile h
  refine ⟨d, hload, ?_⟩
  rcases hstores.patterns with ⟨hnil, hnone⟩ | ⟨s, pslots, hne, hsome, hs⟩
  · -- without patterns there are no tables to be asked
    refine ⟨⟨fun _ => hnil, fun _ => hnone⟩, ?_⟩
    intro s hsome
    rw [hnone] at hsome
    cases hsome
  · refine ⟨⟨?_, fun hnil => absurd hnil hne⟩, ?_⟩
    · intro hnone
      rw [hsome] at hnone
      cases hnone
    intro s' hs'
    obtain rfl := Option.some.inj (hsome.symm.trans hs')
    refine ⟨by rw [hs.size_eq, List.length_map], ?_, ?_⟩
    · intro p hp
      obtain ⟨v, hv⟩ := hs.shows (List.mem_map_of_mem hp)
      refine ⟨v, _, hv.patternNamed?_eq, hv.name_eq, hv.partsOfSpeech, hv.frequency_eq,
        hv.lemmaSuffixes_eq, hv.inflections_eq, ?_, hv.lemmaMatches_eq⟩
      rw [Lexicon.resolved, List.map_map, List.map_map]
      rfl
    · intro name hname
      apply hs.patternNamed?_eq_none
      rwa [List.map_map]

theorem load_compile_patterns_cat : ∃ image d s v forms, catLexicon.compile = .ok image ∧
    Dictionary.load image = .ok d ∧ d.store.patterns = some s ∧
      s.patternNamed? "regular" = .ok (some v) ∧ s.inflections v = .ok forms ∧
      forms.map (fun i => (i.suffix, i.grammemes)) = [("", 4), ("s", 2)] ∧
      s.patternNamed? "irregular" = .ok none := by
  obtain ⟨image, himage⟩ := exists_compile_catLexicon
  obtain ⟨d, hload, hnone, hpatterns⟩ := load_compile_patterns himage
  cases hs : d.store.patterns with
  | none => exact absurd (hnone.1 hs) (by decide)
  | some s =>
    obtain ⟨-, hfound, hothers⟩ := hpatterns s hs
    obtain ⟨v, forms, hnamed, -, -, -, -, hforms, hmap, -⟩ := hfound _ List.mem_cons_self
    refine ⟨image, d, s, v, forms, himage, hload, hs, hnamed, hforms, ?_, hothers _ (by decide)⟩
    -- the forms are read without the views that they belong to
    have hpairs := congrArg (List.map Prod.snd) hmap
    rw [List.map_map, List.map_map] at hpairs
    refine hpairs.trans ?_
    show [("", catLexicon.maskOf ["singular"]), ("s", catLexicon.maskOf ["plural"])] = _
    decide +kernel

/-! ## Patterns by suffix -/

/-- The patterns that an index finds are those that contain the suffix. -/
theorem patternsWithSuffix_eq_ok {s : PatternStore} {ps : List ResolvedPattern}
    {slots : List (List Int64)} (h : s.Stores ps slots) (hindex : s.Indexes true ps)
    (hforms : ∃ p ∈ ps, p.forms ≠ []) (suffix : String) : ∃ vs,
      s.patternsWithSuffix suffix = .ok vs ∧ vs.Pairwise (·.id < ·.id) ∧
      ∀ v, v ∈ vs ↔ s.pattern v.id = .ok v ∧ s.containsSuffix v suffix = .ok true := by
  obtain ⟨ids, hids, hsorted, hmem⟩ := h.patternIdsForSuffix_eq_ok hindex suffix
  have hviews : List.Forall₂ (fun id id' => ∃ v, s.pattern id' = .ok v ∧ v.id = id) ids ids := by
    rw [List.forall₂_same]
    intro id hid
    obtain ⟨p, -, hidentifier, -⟩ := (hmem id).1 hid
    obtain ⟨v, hv, -⟩ := h.pattern_eq_ok hidentifier
    exact ⟨v, hv, PatternStore.id_of_pattern_eq_ok hv⟩
  obtain ⟨vs, hvs, hall⟩ := exists_mapM_eq_ok hviews
  have hmap : vs.map Pattern.id = ids := by
    rw [← List.forall₂_eq_eq_eq, List.forall₂_map_left_iff]
    exact hall.flip
  refine ⟨vs, ?_, ?_, ?_⟩
  · rw [PatternStore.patternsWithSuffix, if_pos (hindex.hasSuffixIndex_iff.2 hforms), hids]
    show (liftM (ids.mapM s.pattern) : Except Error (List Pattern)) = _
    rw [hvs]
    rfl
  · rwa [← hmap, List.pairwise_map] at hsorted
  · intro v
    rw [mem_iff_of_mapM_eq_ok hvs]
    constructor
    · rintro ⟨id, hid, hv⟩
      obtain rfl := PatternStore.id_of_pattern_eq_ok hv
      obtain ⟨p, hp, hidentifier, hsuffix⟩ := (hmem v.id).1 hid
      obtain ⟨w, hw, hshows⟩ := h.pattern_eq_ok hidentifier
      obtain rfl := Except.ok.inj (hv.symm.trans hw)
      refine ⟨hv, ?_⟩
      rw [(hshows p hp rfl).containsSuffix_eq, List.contains_iff_mem.2 hsuffix]
    · rintro ⟨hv, hsuffix⟩
      obtain ⟨p, hp, hshows⟩ := h.exists_shows hv
      rw [hshows.containsSuffix_eq] at hsuffix
      have hcontains := List.contains_iff_mem.1 (Except.ok.inj hsuffix)
      exact ⟨v.id, (hmem v.id).2 ⟨p, hp, hshows.identifier, hcontains⟩, hv⟩

/-- The patterns that an index of the tables of a lexicon finds are those of the lexicon with the
suffix. -/
theorem patternsWithSuffix_lexicon {s : PatternStore} {l : Lexicon} {slots : List (List Int64)}
    {vs : List Pattern} {suffix : String} (h : s.Stores (l.patterns.map l.resolved) slots)
    (hmem : ∀ v, v ∈ vs ↔ s.pattern v.id = .ok v ∧ s.containsSuffix v suffix = .ok true) :
    (∀ p ∈ l.patterns, ∃ v, s.patternNamed? p.id = .ok (some v) ∧
      (v ∈ vs ↔ suffix ∈ p.forms.map Lexicon.Form.suffix)) ∧
    (vs = [] ↔ ∀ p ∈ l.patterns, suffix ∉ p.forms.map Lexicon.Form.suffix) := by
  have hresolved (p : Lexicon.Pattern) :
      (l.resolved p).formSuffixes = p.forms.map Lexicon.Form.suffix := by
    rw [ResolvedPattern.formSuffixes, Lexicon.resolved, List.map_map]
    rfl
  have hcontains {p : Lexicon.Pattern} {v : Pattern} (hv : s.Shows (l.resolved p) v) :
      v ∈ vs ↔ suffix ∈ p.forms.map Lexicon.Form.suffix := by
    rw [hmem, hv.containsSuffix_eq, hresolved, Except.ok.injEq, List.contains_iff_mem]
    exact and_iff_right hv.pattern_eq
  have hnamed : ∀ p ∈ l.patterns, ∃ v, s.Shows (l.resolved p) v := fun p hp =>
    h.shows (List.mem_map_of_mem hp)
  refine ⟨fun p hp => ?_, ?_⟩
  · obtain ⟨v, hv⟩ := hnamed p hp
    exact ⟨v, hv.patternNamed?_eq, hcontains hv⟩
  · rw [List.eq_nil_iff_forall_not_mem]
    constructor
    · intro hnone p hp hsuffix
      obtain ⟨v, hv⟩ := hnamed p hp
      exact hnone v ((hcontains hv).2 hsuffix)
    · intro hnone v hv
      obtain ⟨_, hmapped, hshows⟩ := h.exists_shows ((hmem v).1 hv).1
      obtain ⟨p, hp, rfl⟩ := List.mem_map.1 hmapped
      exact hnone p hp ((hcontains hshows).1 hv)

/-- **The index by suffixes agrees with a search through the forms of all patterns.**  Where a
lexicon asks for the index and has any forms, every string leads to the patterns that contain it,
once each and in the order of their identifiers: these are the patterns of the lexicon that have a
form with this suffix, and there are none if no pattern does.  Where it does not ask for the index,
every string is refused. -/
theorem load_compile_suffixIndex {l : Lexicon} {image : View} (h : l.compile = .ok image) :
    ∃ d, Dictionary.load image = .ok d ∧ (d.store.patterns = none ↔ l.patterns = []) ∧
      ∀ s, d.store.patterns = some s →
        (l.suffixIndex = true → (∃ p ∈ l.patterns, p.forms ≠ []) → ∀ suffix, ∃ vs,
          s.patternsWithSuffix suffix = .ok vs ∧ vs.Pairwise (·.id < ·.id) ∧
          (∀ v, v ∈ vs ↔ s.pattern v.id = .ok v ∧ s.containsSuffix v suffix = .ok true) ∧
          (∀ p ∈ l.patterns, ∃ v, s.patternNamed? p.id = .ok (some v) ∧
            (v ∈ vs ↔ suffix ∈ p.forms.map Lexicon.Form.suffix)) ∧
          (vs = [] ↔ ∀ p ∈ l.patterns, suffix ∉ p.forms.map Lexicon.Form.suffix)) ∧
        (l.suffixIndex = false → ∀ suffix,
          s.patternsWithSuffix suffix = .error .missingSuffixIndex) := by
  obtain ⟨d, maps, slots, data, hload, hstores⟩ := stores_of_compile h
  refine ⟨d, hload, hstores.patterns.eq_none_iff, ?_⟩
  intro s hsome
  obtain ⟨pslots, hs⟩ := hstores.patterns.exists_stores hsome
  have hindex := hstores.suffixIndex s hsome
  constructor
  · rintro hwith ⟨p, hp, hforms⟩ suffix
    rw [hwith] at hindex
    have hforms' : ∃ q ∈ l.patterns.map l.resolved, q.forms ≠ [] :=
      ⟨_, List.mem_map_of_mem hp, fun hnil => hforms (List.map_eq_nil_iff.1 hnil)⟩
    obtain ⟨vs, hvs, hsorted, hmem⟩ := patternsWithSuffix_eq_ok hs hindex hforms' suffix
    exact ⟨vs, hvs, hsorted, hmem, patternsWithSuffix_lexicon hs hmem⟩
  · intro hwithout suffix
    rw [PatternStore.patternsWithSuffix, PatternStore.hasSuffixIndex, hindex.unlisted hwithout]
    rfl

/-- The lexicon of two patterns, of nouns and of verbs, that share a suffix. -/
def suffixLexicon : Lexicon where
  language := "en"
  words := []
  patterns := [⟨"noun", [], 1, [""], [⟨"", []⟩, ⟨"s", []⟩]⟩, ⟨"verb", [], 1, [], [⟨"s", []⟩]⟩]
  suffixIndex := true

theorem exists_compile_suffixLexicon : ∃ image, suffixLexicon.compile = .ok image := by
  apply exists_eq_ok_of_isOk
  unfold Lexicon.compile WordStore.ofLexicon PatternStore.ofPatterns? PatternStore.ofResolved
    PatternStore.Scheme.ofPatterns PatternStore.frequenciesOf PatternStore.indexOf
    SuffixIndex.ofPatterns SuffixIndex.listsOf SuffixIndex.suffixesOf SuffixIndex.idsWith
  -- the kernel unfolds the sort by insertion, but not the sort by merging
  simp only [List.mergeSort_eq_insertionSort]
  decide +kernel

theorem load_compile_suffixIndex_shared : ∃ image d s noun verb,
    suffixLexicon.compile = .ok image ∧ Dictionary.load image = .ok d ∧
      d.store.patterns = some s ∧ s.patternNamed? "noun" = .ok (some noun) ∧
      s.patternNamed? "verb" = .ok (some verb) ∧
      (∃ vs, s.patternsWithSuffix "s" = .ok vs ∧ noun ∈ vs ∧ verb ∈ vs) ∧
      (∃ vs, s.patternsWithSuffix "" = .ok vs ∧ noun ∈ vs ∧ verb ∉ vs) ∧
      s.patternsWithSuffix "ing" = .ok [] := by
  obtain ⟨image, himage⟩ := exists_compile_suffixLexicon
  obtain ⟨d, hload, hnone, hpatterns⟩ := load_compile_suffixIndex himage
  cases hs : d.store.patterns with
  | none => exact absurd (hnone.1 hs) (by decide)
  | some s =>
    have hfinds := (hpatterns s hs).1 rfl (by decide)
    have hnoun : suffixLexicon.patterns[0] ∈ suffixLexicon.patterns := List.getElem_mem _
    have hverb : suffixLexicon.patterns[1] ∈ suffixLexicon.patterns := List.getElem_mem _
    obtain ⟨vs, hvs, -, -, hnamed, -⟩ := hfinds "s"
    obtain ⟨ws, hws, -, -, hnamed', -⟩ := hfinds ""
    obtain ⟨us, hus, -, -, -, hempty⟩ := hfinds "ing"
    obtain ⟨noun, hn, hmem⟩ := hnamed _ hnoun
    obtain ⟨verb, hv, hmem'⟩ := hnamed _ hverb
    obtain ⟨noun', hn', hmemEmpty⟩ := hnamed' _ hnoun
    obtain ⟨verb', hv', hmemEmpty'⟩ := hnamed' _ hverb
    obtain rfl := Option.some.inj (Except.ok.inj (hn.symm.trans hn'))
    obtain rfl := Option.some.inj (Except.ok.inj (hv.symm.trans hv'))
    refine ⟨image, d, s, noun, verb, himage, hload, hs, hn, hv, ⟨vs, hvs, hmem.2 ?_, hmem'.2 ?_⟩,
      ⟨ws, hws, hmemEmpty.2 ?_, mt hmemEmpty'.1 ?_⟩, ?_⟩
    · decide
    · decide
    · decide
    · decide
    · rw [hus, hempty.2 (by decide)]

/-! ## Writing again -/

/-- **The dictionary of every compiled lexicon is written to the same bytes again** after it was
loaded. -/
theorem write_load_compile {l : Lexicon} {image : View} (h : l.compile = .ok image) :
    ∃ d, Dictionary.load image = .ok d ∧ WordStore.load image = .ok d.store ∧
      Writer.toView <$> d.store.write .empty = .ok image := by
  obtain ⟨d, hload, hd⟩ := exists_load_of_compile h
  exact ⟨d, hload, hd.load_eq_ok, hd.write_eq_ok⟩

theorem write_load_compile_cat : ∃ image d, catLexicon.compile = .ok image ∧
    Dictionary.load image = .ok d ∧ Writer.toView <$> d.store.write .empty = .ok image := by
  obtain ⟨image, himage⟩ := exists_compile_catLexicon
  obtain ⟨d, hload, -, hwrite⟩ := write_load_compile himage
  exact ⟨image, d, himage, hload, hwrite⟩

/-! ## Files that are cut -/

/-- **A number of first bytes decides what is loaded from a file.**  Every file that begins with
them gives the same tables, and every file that ends before them is too short.  All bytes of a
compiled lexicon are needed. -/
theorem load_decidedBy :
    (∀ file s, WordStore.load file = .ok s → ∃! c, DecidedBy WordStore.load file s c) ∧
      ∀ (l : Lexicon) (image : View), l.compile = .ok image →
        ∃ s, WordStore.load image = .ok s ∧ DecidedBy WordStore.load image s image.size := by
  refine ⟨fun file s h => ?_, fun l image h => ?_⟩
  · obtain ⟨c, hc⟩ := WordStore.exists_decidedBy h
    exact ⟨c, hc, fun d hd => hd.unique hc⟩
  · obtain ⟨s, hs⟩ := Lexicon.exists_compiledTo h
    exact ⟨s, hs.load_eq_ok, hs.decidedBy⟩

theorem load_decidedBy_cat : ∃ image s, catLexicon.compile = .ok image ∧
    WordStore.load image = .ok s ∧ DecidedBy WordStore.load image s image.size ∧
      ∃! c, DecidedBy WordStore.load image s c := by
  obtain ⟨image, himage⟩ := exists_compile_catLexicon
  obtain ⟨s, hload, hdecided⟩ := load_decidedBy.2 catLexicon image himage
  exact ⟨image, s, himage, hload, hdecided, load_decidedBy.1 image s hload⟩

end Dictionary

end Paradigm
