import Mathlib
import Paradigm.Proofs.Dictionary
import Paradigm.Proofs.Store.Words.Failure

/-!
# Lexicons that are refused

A lexicon is compiled unless it does not meet the demands, a word lists a pattern that there is not,
or the format has no room for it.  Nothing that is looked up or put into a record on the way can be
missing or too large.

## Main definitions

* `Lexicon.elementCount`: the number of elements of all lists of a lexicon

## Main results

* `WordStore.failsOnly_ofLexicon`: failures to build the tables of a lexicon
* `Lexicon.compile_refusals`: failures to compile a lexicon
-/

namespace Paradigm

namespace Lexicon

/-! ## The size of a lexicon -/

/-- The number of elements of the lists of a word. -/
def Word.elementCount (w : Word) : Nat :=
  w.grammemes.length + (w.properties.entries.flatMap Prod.snd).length + w.inflections.length

/-- The number of elements of the lists of a pattern. -/
def Pattern.elementCount (p : Pattern) : Nat :=
  p.pos.length + p.lemmaSuffixes.length + p.forms.length +
    (p.forms.flatMap Form.grammemes).length

/-- The number of elements of all lists of a lexicon. -/
def elementCount (l : Lexicon) : Nat :=
  l.words.length + (l.words.map Word.elementCount).sum +
    (l.patterns.length + (l.patterns.map Pattern.elementCount).sum)

theorem Word.length_listed_le (w : Word) :
    (w.listed.flatMap Prod.snd).length ≤ w.elementCount := by
  have hown : ((w.properties.entries.filter (!·.2.isEmpty)).flatMap Prod.snd).length ≤
      (w.properties.entries.flatMap Prod.snd).length := by
    rw [List.length_flatMap, List.length_flatMap]
    exact (List.filter_sublist.map _).sum_le_sum fun _ _ => Nat.zero_le _
  rw [listed, List.flatMap_append, List.length_append, elementCount]
  split
  · simp only [List.flatMap_nil, List.length_nil]
    omega
  · simp only [List.flatMap_singleton]
    omega

/-- There are no more heads and suffixes of patterns than elements of lists. -/
theorem length_suffixesOf_le (l : Lexicon) : (l.patterns.map l.resolved).length +
    (PatternStore.suffixesOf (l.patterns.map l.resolved)).length ≤ l.elementCount := by
  have hsuffixes : (PatternStore.suffixesOf (l.patterns.map l.resolved)).length ≤
      (l.patterns.map Pattern.elementCount).sum := by
    rw [PatternStore.suffixesOf, List.flatMap_map, List.length_flatMap]
    apply List.sum_le_sum
    intro p _
    rw [List.length_append, ResolvedPattern.formSuffixes, List.length_map, resolved,
      Pattern.elementCount]
    dsimp only
    rw [List.length_map]
    omega
  rw [List.length_map, elementCount]
  omega

/-! ## Demands on a lexicon -/

/-- No word occurs again if the words are accepted. -/
theorem nodup_of_checkWords {seen : List String} {words : List Word} {u : Unit}
    (h : checkWords seen words = .ok u) :
    (words.map Word.word).Nodup ∧ (words.map Word.word).Disjoint seen := by
  induction words generalizing seen with
  | nil => exact ⟨.nil, List.disjoint_nil_left _⟩
  | cons w words ih =>
    rw [checkWords] at h
    split at h
    · cases h
    rename_i hnew
    split at h
    · cases h
    exact nodup_cons_of_disjoint (fun hmem => hnew (List.contains_iff_mem.2 hmem)) (ih h)

/-- The words are different, and the language is short enough to be stored. -/
theorem bounds_of_check {l : Lexicon} {u : Unit} (h : l.check = .ok u) :
    (l.words.map Word.word).Nodup ∧ l.language.utf8ByteSize ≤ WordStore.languageLength := by
  obtain ⟨u, hlanguage, hwords⟩ := Except.bind_eq_ok.1 h
  refine ⟨(nodup_of_checkWords hwords).1, ?_⟩
  unfold checkLanguage at hlanguage
  split at hlanguage
  · cases hlanguage
  · rename_i hsize
    exact Nat.not_lt.1 fun hlt => hsize (Or.inr hlt)

theorem failsOnly_checkWords (seen : List String) (words : List Word) :
    FailsOnly (fun fault => ∀ name, fault ≠ .noBit name) (checkWords seen words) := by
  induction words generalizing seen with
  | nil => exact .ok ()
  | cons w words ih =>
    rw [checkWords]
    split
    · exact .error (by simp)
    split
    · exact .error (by simp)
    · exact ih _

/-- A demand that is not met is about the language or about a word. -/
theorem failsOnly_check (l : Lexicon) :
    FailsOnly (fun fault => ∀ name, fault ≠ .noBit name) l.check := by
  refine FailsOnly.bind ?_ fun _ _ => failsOnly_checkWords [] l.words
  unfold checkLanguage
  split
  · exact .error (by simp)
  · split
    · exact .ok ()
    · exact .error (by simp)

theorem failsOnly_grammemeTable (l : Lexicon) : FailsOnly l.Refusal l.grammemeTable := by
  refine (SortedTable.failsOnly_ofList _).refusal.bind fun t _ => ?_
  dsimp only
  split
  · exact .error (.fault nofun)
  · exact .ok t

end Lexicon

/-! ## Building -/

/-- The names in the tables of the patterns of a lexicon. -/
theorem PatternStore.Stores.patternNames {s : PatternStore} {l : Lexicon}
    {slots : List (List Int64)} (h : s.Stores (l.patterns.map l.resolved) slots) :
    ∃ names, names.Perm (l.patterns.map Lexicon.Pattern.id) ∧
      Numbering s.size s.identifier? s.name names := by
  obtain ⟨names, hperm, hnumbering⟩ := h.names
  rw [List.map_map] at hperm
  exact ⟨names, hperm, hnumbering⟩

namespace WordStore

variable {l : Lexicon}

/-- Every pattern of a lexicon has an identifier. -/
theorem exists_patternId {grammemes : SortedTable} {patterns : Option PatternStore}
    (hin : l.GrammemesIn grammemes)
    (h : PatternStore.ofPatterns? grammemes l.patterns l.suffixIndex = .ok patterns) :
    ∀ name ∈ l.patterns.map Lexicon.Pattern.id,
      ∃ id, patterns.bind (·.identifier? name) = some id := by
  intro name hname
  rcases PatternStore.ofPatterns?_eq_ok h with ⟨hnil, -⟩ |
    ⟨ps, store, slots, -, rfl, hps, hstores, -⟩
  · rw [hnil] at hname
    cases hname
  · obtain rfl := hin.ofPatterns_eq hps
    obtain ⟨names, hperm, hnumbering⟩ := hstores.patternNames
    exact hnumbering.mem_iff.1 (hperm.mem_iff.2 hname)

/-- The map of a word has no more values than the lists of the word have elements. -/
theorem bounded_of_mapM_ofWord {names : SortedTable} {values : TrieTable}
    {patterns : Option PatternStore} {strings : List String} {words : List Lexicon.Word}
    {maps : List PropertyMap} (hnames : names.Stores strings)
    (hreserved : ∀ w ∈ words, inflectionProperty ∉ w.properties.names)
    (h : words.mapM (PropertyMap.ofWord names values patterns) = .ok maps) :
    List.Forall₂ (fun w m => m.Bounded names.size w.elementCount) words maps := by
  have hall := mapM_eq_ok_iff.1 h
  rw [List.forall₂_iff_get] at hall ⊢
  refine ⟨hall.1, fun i hw hm => ?_⟩
  have hbounded :=
    PropertyMap.bounded_of_ofWord hnames (hreserved _ (List.get_mem words ⟨i, hw⟩)) (hall.2 i hw hm)
  exact { hbounded with values_le := hbounded.values_le.trans (Lexicon.Word.length_listed_le _) }

/-- Each of the maps of words is bounded by the elements of all lists of the words. -/
theorem bounded_of_mem {keys : Nat} {words : List Lexicon.Word} {maps : List PropertyMap}
    (hmaps : List.Forall₂ (fun w m => m.Bounded keys w.elementCount) words maps)
    {m : PropertyMap} (hm : m ∈ maps) :
    m.Bounded keys (words.map Lexicon.Word.elementCount).sum := by
  obtain ⟨i, hi, rfl⟩ := List.mem_iff_getElem.1 hm
  have hw : i < words.length := hmaps.length_eq ▸ hi
  have hbounded := hmaps.get hw hi
  have hle : words[i].elementCount ≤ (words.map Lexicon.Word.elementCount).sum :=
    List.single_le_sum (by simp) _ (List.mem_map_of_mem (List.getElem_mem hw))
  exact { hbounded with values_le := hbounded.values_le.trans hle }

/-- The maps of words have no more slots than two for each element of a list. -/
theorem length_flatten_runs_le {keys : Nat} {layout : RecordLayout 3} {words : List Lexicon.Word}
    {maps : List PropertyMap} {runs : List (List Int32)}
    (hmaps : List.Forall₂ (fun w m => m.Bounded keys w.elementCount) words maps)
    (hruns : List.Forall₂ (PropertyMap.SlotsOf layout) maps runs) :
    runs.flatten.length ≤ 2 * (words.map Lexicon.Word.elementCount).sum := by
  induction hmaps generalizing runs with
  | nil =>
    cases hruns
    exact le_rfl
  | cons hm _ ih =>
    cases hruns with
    | cons hrun hruns =>
      have hfirst := hm.length_slots_le hrun
      have hrest := ih hruns
      rw [List.flatten_cons, List.length_append, List.map_cons, List.sum_cons]
      omega

/-- The tables of a lexicon with few elements are refused only for the reasons that a lexicon is. -/
theorem failsOnly_ofLexicon (hcount : l.elementCount < 2 ^ 31) :
    FailsOnly l.Refusal (ofLexicon l) := by
  unfold ofLexicon
  dsimp only
  split
  · rename_i hfault
    exact .error (.fault (l.failsOnly_check _ hfault))
  rename_i hcheck
  obtain ⟨u, hcheck⟩ := exists_eq_ok_of_ne_error hcheck
  obtain ⟨-, hreserved⟩ := Lexicon.check_eq_ok hcheck
  obtain ⟨hwords, -⟩ := Lexicon.bounds_of_check hcheck
  have hsum : l.words.length + (l.words.map Lexicon.Word.elementCount).sum < 2 ^ 31 := by
    unfold Lexicon.elementCount at hcount
    omega
  -- the tables in the order in which they are built
  refine (Lexicon.failsOnly_grammemeTable l).bind fun grammemes hgrammemes => ?_
  have hin := Lexicon.grammemesIn_of_grammemeTable hgrammemes
  refine (PatternStore.failsOnly_ofPatterns? hin.ofPatterns_eq_ok ?_ ?_ _).bind
    fun patterns hpatterns => ?_
  · rw [List.map_map]
    rfl
  · exact (l.length_suffixesOf_le.trans_lt hcount).trans (by decide)
  refine (SortedTable.failsOnly_ofList _).refusal.bind fun names hnames => ?_
  refine (TrieTable.failsOnly_ofList _).refusal.bind fun values hvalues => ?_
  rw [liftM_eq_ok] at hnames hvalues
  have hstores := SortedTable.stores_of_ofList hnames
  have hvalueTable := TrieTable.numbers (TrieTable.stores_of_ofList hvalues)
  refine (FailsOnly.mapM fun w hw => ?_).bind fun maps hmaps => ?_
  · exact PropertyMap.failsOnly_ofWord hw hstores.numbers hvalueTable
      (fun s => mem_numberedStrings) (exists_patternId hin hpatterns)
  refine (PropertyMap.failsOnly_layoutFor _ _).bind fun mapLayout hmapLayout => ?_
  have hbounded := bounded_of_mapM_ofWord hstores hreserved hmaps
  refine (FailsOnly.mapM fun m hm => ?_).bind fun runs hruns => ?_
  · refine PropertyMap.failsOnly_slots hmapLayout ?_ ?_ (fun _ => bounded_of_mem hbounded) hm
    · rw [hstores.size_eq]
      exact (SortedTable.length_sortedStrings_le hnames).trans_lt (by decide)
    · exact lt_trans (by omega) (show 2 ^ 31 < addressLimit by decide)
  refine (FailsOnly.mapM fun w hw => .of_exists ?_).bind fun masks hmasks => ?_
  · exact ⟨_, hin.mask_eq_ok (Lexicon.grammemes_subset hw)⟩
  have hmasksLength := length_of_mapM_eq_ok hmasks
  have hspan := (PropertyMap.layoutFor_eq_ok hmapLayout).2.2
  have hflatten := length_flatten_runs_le hbounded
    ((mapM_eq_ok_iff.1 hruns).imp fun _ _ hrun => PropertyMap.slotsOf_of_slots hspan hrun)
  refine (RecordLayout.failsOnly_fitting (by decide) _).refusal.bind fun dataLayout hlayout => ?_
  rw [liftM_eq_ok] at hlayout
  refine (FailsOnly.mapM fun record hrecord => .of_exists ?_).refusal.bind fun data hdata => ?_
  · apply exists_encode_dataRecord hlayout _ _ hrecord
    all_goals
      rw [addressLimit]
      omega
  have hwidth := RecordLayout.totalWidth_eq_ok (RecordLayout.names_of_fitting hlayout).2
  refine (FailsOnly.of_exists ⟨_, congrArg liftM hwidth⟩).bind fun width _ => ?_
  have hshared := length_shared_le_words hmasks (liftM_eq_ok.1 hdata)
  refine (FailsOnly.of_exists ?_).refusal.bind fun words _ => ?_
  · exact StringMap.exists_ofList_zip hwords (by rw [List.length_map]; omega) _
  refine (FailsOnly.of_exists (PackedArray.exists_ofList_of_lt ?_)).refusal.bind fun shared _ => ?_
  · exact (hshared _).trans_lt (by omega)
  refine (FailsOnly.of_exists (PackedArray.exists_ofList_of_lt ?_)).refusal.bind fun _ _ => .ok _
  have hslots := length_mapSlots_le runs
  omega

end WordStore

/-! ## Compiling -/

namespace Lexicon

/-- In a lexicon that is compiled, words and patterns occur once each, and words list no patterns
but those that there are. -/
theorem demands_of_compile {l : Lexicon} {image : View} (h : l.compile = .ok image) :
    (l.words.map Word.word).Nodup ∧ (l.patterns.map Pattern.id).Nodup ∧
      (∀ w ∈ l.words, inflectionProperty ∉ w.properties.names) ∧
      ∀ w ∈ l.words, w.inflections ⊆ l.patterns.map Pattern.id := by
  obtain ⟨s, hs⟩ := exists_compiledTo h
  obtain ⟨u, hcheck⟩ := hs.check
  obtain ⟨maps, slots, data, hstores⟩ := hs.stores
  refine ⟨(bounds_of_check hcheck).1, ?_, hs.reserved_not_mem, fun w hw name hname => ?_⟩
  · cases hps : s.patterns with
    | none =>
      rw [hstores.patterns.eq_none_iff.1 hps]
      exact .nil
    | some ps =>
      obtain ⟨pslots, hpatterns⟩ := hstores.patterns.exists_stores hps
      obtain ⟨names, hperm, hnumbering⟩ := hpatterns.patternNames
      exact hperm.nodup_iff.1 hnumbering.nodup
  · obtain ⟨key, ids, -, -, hall⟩ := hstores.exists_patternIds hw (List.ne_nil_of_mem hname)
    obtain ⟨id, hid⟩ : ∃ id, s.patterns.bind (·.identifier? name) = some id := by
      obtain ⟨i, hi, rfl⟩ := List.mem_iff_getElem.1 hname
      exact ⟨_, hall.get hi (hall.length_eq ▸ hi)⟩
    cases hps : s.patterns with
    | none =>
      rw [hps] at hid
      cases hid
    | some ps =>
      obtain ⟨pslots, hpatterns⟩ := hstores.patterns.exists_stores hps
      obtain ⟨names, hperm, hnumbering⟩ := hpatterns.patternNames
      rw [hps] at hid
      exact hperm.mem_iff.1 (hnumbering.mem_iff.2 ⟨_, hid⟩)

theorem failsOnly_compile {l : Lexicon} (hcount : l.elementCount < 2 ^ 31) :
    FailsOnly l.Refusal l.compile := by
  refine (WordStore.failsOnly_ofLexicon hcount).bind fun s hs => ?_
  obtain ⟨u, hcheck⟩ := WordStore.check_of_ofLexicon hs
  have hlanguage := (bounds_of_check hcheck).2
  rw [← (WordStore.stores_of_ofLexicon hs).1] at hlanguage
  exact (WordStore.failsOnly_write hlanguage _).refusal.bind fun _ _ => .ok _

/-- **A lexicon of fewer than 2^31 elements is refused only for what is wrong with it, or for want
of room.**  It does not meet a demand, or a word lists a pattern that there is not, or the format
has no room for a string, for a record or for a number of elements; nothing that is looked up on the
way is missing, no field is greater than its width, no index lies beyond the end, and no key is
repeated.  A lexicon with a word that lists a pattern that there is not, or sets the property that
lists patterns, or with a word or the name of a pattern that occurs again, is always refused. -/
theorem compile_refusals (l : Lexicon) :
    (l.elementCount < 2 ^ 31 → ∀ e, l.compile = .error e → l.Refusal e) ∧
    ((∃ w ∈ l.words, ∃ name ∈ w.inflections, name ∉ l.patterns.map Pattern.id) ∨
        (∃ w ∈ l.words, inflectionProperty ∈ w.properties.names) ∨
        ¬ (l.words.map Word.word).Nodup ∨ ¬ (l.patterns.map Pattern.id).Nodup →
      ∃ e, l.compile = .error e) := by
  refine ⟨failsOnly_compile, fun hwrong => ?_⟩
  cases hcompile : l.compile with
  | error e => exact ⟨e, rfl⟩
  | ok image =>
    obtain ⟨hwords, hpatterns, hreserved, hlisted⟩ := demands_of_compile hcompile
    rcases hwrong with ⟨w, hw, name, hname, hunknown⟩ | ⟨w, hw, hmem⟩ | hrepeated | hrepeated
    · exact absurd (hlisted w hw hname) hunknown
    · exact absurd hmem (hreserved w hw)
    · exact absurd hwords hrepeated
    · exact absurd hpatterns hrepeated

/-- The lexicon of a word whose pattern is missing. -/
def strayLexicon : Lexicon where
  language := "en"
  words := [⟨"cat", ["noun"], .empty, ["regular"]⟩]
  patterns := []
  suffixIndex := false

/-- The word is refused once the tables before the maps of words have been built. -/
theorem compile_strayLexicon : strayLexicon.compile = .error (.unknownPattern "regular") := by
  have hcheck : strayLexicon.check = .ok () := rfl
  have hgrammemes : strayLexicon.grammemeTable =
      .ok ⟨.ofList [4], .ofList [110, 111, 117, 110, 0]⟩ := by cbv
  have hnames : SortedTable.ofList strayLexicon.propertyNames =
      .ok ⟨.ofList [10], .ofList [105, 110, 102, 108, 101, 99, 116, 105, 111, 110, 0]⟩ := by cbv
  obtain ⟨values, hvalues⟩ : ∃ t, TrieTable.ofList strayLexicon.propertyValues = .ok t :=
    ⟨_, by cbv⟩
  unfold compile WordStore.ofLexicon
  rw [hcheck, hgrammemes]
  dsimp only
  rw [hnames, hvalues]
  rfl

theorem compile_refusals_stray : strayLexicon.elementCount < 2 ^ 31 ∧
    strayLexicon.compile = .error (.unknownPattern "regular") ∧
    strayLexicon.Refusal (.unknownPattern "regular") ∧
    (∃ w ∈ strayLexicon.words, ∃ name ∈ w.inflections,
      name ∉ strayLexicon.patterns.map Pattern.id) ∧
    ∃ e, strayLexicon.compile = .error e := by
  obtain ⟨hrefusal, hwrong⟩ := compile_refusals strayLexicon
  have hcount : strayLexicon.elementCount < 2 ^ 31 := by decide
  have hstray : ∃ w ∈ strayLexicon.words, ∃ name ∈ w.inflections,
      name ∉ strayLexicon.patterns.map Pattern.id :=
    ⟨_, List.mem_singleton_self _, "regular", List.mem_singleton_self _, nofun⟩
  exact ⟨hcount, compile_strayLexicon, hrefusal hcount _ compile_strayLexicon, hstray,
    hwrong (Or.inl hstray)⟩

end Lexicon

end Paradigm
