import Mathlib
import Paradigm.Proofs.Inflector.Fallback
import Paradigm.Proofs.Text.Case

/-!
# Inflection of words without case

A word counts as a word in capitals if uppercase leaves it as it is, and so does a numeral, which
has no letters at all.  Lowercase leaves it as it is as well, so that it is looked for as it is
written; but the form that is found is put into capitals.  The stem of the word has no case either,
and what changes is the suffix of the form: the ordinal of `7` is `7TH`.

## Main definitions

* `Dictionary.Exchanges`: the ending of a word is exchanged by one of its patterns

## Main results

* `Inflector.exists_gives`, `Inflector.eq_or_exchanges`: where the form of a word comes from
* `Inflector.inflect_of_isAllUpper`, `Inflector.inflect_of_lowercase_eq`: words that are looked for
  in lowercase alone
* `Inflector.inflect_caseless`: inflection of words without case
* `Inflector.inflect_capitalizes_suffix`: a numeral with a suffix in capitals
-/

namespace Paradigm

open Text (Case.lowercase Case.uppercase Case.isAllUpper Case.upperOf Case.Caseless)

/-! ## Where a form comes from -/

/-- A word is a stem with an ending, which a pattern of the word exchanges for the suffix of one of
its forms.  The ending is itself such a suffix, if there is any. -/
structure Dictionary.Exchanges (d : Dictionary) (word stem ending suffix : String) : Prop where
  word_eq : word = stem ++ ending
  by_pattern : ∃ s ps p forms, d.store.patterns = some s ∧ d.patternsForWord s word = .ok ps ∧
    p ∈ ps ∧ s.inflections p = .ok forms ∧ (ending = "" ∨ ∃ i ∈ forms, i.suffix = ending) ∧
    ∃ j ∈ forms, j.suffix = suffix

/-- A word is kept, or loses an ending for the suffix of a form. -/
theorem Inflection.reinflect_eq_some {forms : List Inflection} {source target : Mask}
    {optional : List Mask} {word form : String}
    (h : reinflect source target optional word forms = some form) :
    form = word ∨ ∃ stem ending, word = stem ++ ending ∧
      (ending = "" ∨ ∃ i ∈ forms, i.suffix = ending) ∧ ∃ j ∈ forms, form = stem ++ j.suffix := by
  rw [reinflect_eq] at h
  split at h
  · exact .inl (Option.some.inj h).symm
  · obtain ⟨j, hj, rfl⟩ := Option.map_eq_some_iff.1 h
    have hmem := (List.mem_filter.1 (mem_of_best? hj)).1
    refine .inr ⟨_, _, eq_stem_append (suffixToCut_isSuffix source word forms), ?_, j, hmem, rfl⟩
    rcases suffixToCut_cases source word forms with ⟨hnone, -⟩ | ⟨i, hi, heq, -⟩
    · exact .inl hnone
    · exact .inr ⟨i, hi, heq.symm⟩

namespace Inflector

variable {f : Inflector} {word form : String} {request : Request}

theorem exists_gives_of_inflectBy {s : PatternStore} {rs : List Reading}
    (hrs : ∀ r ∈ rs, r.Readable s) (h : f.inflectBy s word request rs = .ok (some form)) :
    ∃ target optional, ∃ r ∈ rs, r.Gives s target optional word form := by
  obtain ⟨meant, -, h⟩ := Except.bind_eq_ok.1 h
  obtain ⟨lines, -, h⟩ := Except.bind_eq_ok.1 h
  obtain ⟨target, -, h⟩ := Except.bind_eq_ok.1 h
  obtain ⟨optional, -, h⟩ := Except.bind_eq_ok.1 h
  have hmem : ∀ r ∈ f.candidates meant (f.analyzer.important rs), r ∈ rs := by
    intro r hr
    exact (List.mem_filter.1 (mem_of_mem_candidates hr)).1
  rw [liftM_eq_ok, firstForm_eq_ok_iff fun r hr => hrs r (hmem r hr)] at h
  generalize hcandidates : f.candidates meant (f.analyzer.important rs) = candidates at h hmem
  cases h with
  | form before r after form hnone hgives =>
    exact ⟨target, optional, r, hmem r (List.mem_append_right _ List.mem_cons_self), hgives⟩

/-- A form of a word is given by one of the readings of the word. -/
theorem exists_gives (h : f.inflectWritten word request = .ok (some form)) :
    ∃ mask s ps rs target optional, f.analyzer.dictionary.store.patterns = some s ∧
      f.analyzer.dictionary.patternsForWord s word = .ok ps ∧
      Analyzer.readingsByAll s word mask ps = .ok rs ∧
      ∃ r ∈ rs, r.Gives s target optional word form := by
  obtain ⟨_ | mask, -, h⟩ := Except.bind_eq_ok.1 h
  · cases h
  cases hs : f.analyzer.dictionary.store.patterns with
  | none =>
    rw [hs] at h
    cases h
  | some s =>
    rw [hs] at h
    obtain ⟨ps, hps, h⟩ := Except.bind_eq_ok.1 h
    obtain ⟨_ | ⟨r, rs⟩, hrs, h⟩ := Except.bind_eq_ok.1 h
    · cases h
    · rw [liftM_eq_ok] at hps hrs
      have hreadable := fun r hr => @Analyzer.readable_of_mem_readingsByAll _ _ _ _ _ hrs r hr
      obtain ⟨target, optional, hgives⟩ := exists_gives_of_inflectBy hreadable h
      exact ⟨mask, s, ps, _, target, optional, rfl, hps, hrs, hgives⟩

/-- A form of a word is the word itself, or has another suffix of a pattern of the word. -/
theorem eq_or_exchanges (h : f.inflectWritten word request = .ok (some form)) :
    form = word ∨ ∃ stem ending suffix,
      f.analyzer.dictionary.Exchanges word stem ending suffix ∧ form = stem ++ suffix := by
  obtain ⟨mask, s, ps, rs, target, optional, hs, hps, hrs, r, hr, hgives⟩ := exists_gives h
  cases hi : r.inflection with
  | none =>
    unfold Reading.Gives at hgives
    rw [hi] at hgives
    exact .inl hgives
  | some i =>
    obtain ⟨hp, -, -, forms, hforms⟩ := Analyzer.of_mem_readingsByAll hrs hr hi
    have hform := ((Reading.gives_iff hi hforms).1 hgives).2
    rcases Inflection.reinflect_eq_some hform with
      heq | ⟨stem, ending, hword, hending, j, hj, heq⟩
    · exact .inl heq
    · refine .inr ⟨stem, ending, j.suffix, ⟨hword, ?_⟩, heq⟩
      exact ⟨s, ps, i.pattern, forms, hs, hps, hp, hforms, hending, j, hj, rfl⟩

/-! ## Words that are looked for once -/

theorem not_all_isEmpty {names : List String} (h : ∃ name ∈ names, name ≠ "") :
    ¬ names.all String.isEmpty := by
  intro hall
  obtain ⟨name, hname, hne⟩ := h
  exact hne (String.isEmpty_iff.1 (List.all_eq_true.1 hall name hname))

/-- A word in capitals is looked for in lowercase alone, and its form is put into capitals. -/
theorem inflect_of_isAllUpper (f : Inflector) (hupper : Case.isAllUpper word)
    (hnonempty : ∃ name ∈ request.constraints, name ≠ "") :
    f.inflect word request =
      (Option.map fun form => Case.uppercase form f.analyzer.dictionary.locale) <$>
        f.inflectWritten (Case.lowercase word f.analyzer.dictionary.locale) request := by
  have hrestore : restoreCase f.analyzer.dictionary.locale word =
      fun form => Case.uppercase form f.analyzer.dictionary.locale := by
    funext form
    rw [restoreCase, if_pos hupper]
  rw [inflect, if_neg (not_all_isEmpty hnonempty), if_pos hupper, ← hrestore,
    Except.pure_eq_ok, Except.ok_bind]
  dsimp only
  cases f.inflectWritten (Case.lowercase word f.analyzer.dictionary.locale) request with
  | error e => rfl
  | ok form? => rfl

/-- A word in lowercase that is not in capitals is inflected as it is written: if this finds
nothing, then the second search does not either. -/
theorem inflect_of_lowercase_eq (f : Inflector) (hupper : Case.isAllUpper word = false)
    (hlower : Case.lowercase word f.analyzer.dictionary.locale = word)
    (hnonempty : ∃ name ∈ request.constraints, name ≠ "") :
    f.inflect word request = f.inflectWritten word request := by
  rw [inflect, if_neg (not_all_isEmpty hnonempty), hupper]
  dsimp only
  rw [if_neg Bool.false_ne_true, hlower]
  cases hwritten : f.inflectWritten word request with
  | error e => rfl
  | ok form? =>
    cases form? with
    | none => rfl
    | some form => rfl

/-! ## The lexicon of a numeral -/

/-- The lexicon of a numeral, the ordinal of which takes a suffix. -/
def numeralLexicon : Lexicon where
  language := "en"
  words := [⟨"7", ["numeral", "cardinal"], .empty, ["number"]⟩]
  patterns := [⟨"number", ["numeral"], 1, [""], [⟨"", ["cardinal"]⟩, ⟨"th", ["ordinal"]⟩]⟩]
  suffixIndex := false

theorem exists_compile_numeralLexicon : ∃ image, numeralLexicon.compile = .ok image := by
  let names := "cardinal\x00numeral\x00ordinal\x00".toList.map fun c => UInt16.ofNat c.toNat
  -- the order of the names is evaluated first, since the kernel does not unfold the sort
  have htable : numeralLexicon.grammemeTable = .ok ⟨.ofList [8, 2311, 4359], .ofList names⟩ := by
    cbv
  apply exists_eq_ok_of_isOk
  unfold Lexicon.compile WordStore.ofLexicon
  rw [htable]
  decide +kernel

theorem caseless_seven : Case.Caseless "7" := by decide +kernel

/-- The numeral as it is written has a cardinal and an ordinal. -/
theorem exists_inflectWord_numeralLexicon : ∃ image d a, numeralLexicon.compile = .ok image ∧
    Dictionary.load image = .ok d ∧ Analyzer.ofTables d .empty = .ok a ∧
      ∀ triesAll traces, inflectWord ⟨a, triesAll, traces⟩ "7" ["cardinal"] [] = .ok (some "7") ∧
        inflectWord ⟨a, triesAll, traces⟩ "7" ["ordinal"] [] = .ok (some "7th") := by
  obtain ⟨image, himage⟩ := exists_compile_numeralLexicon
  obtain ⟨d, maps, slots, data, hload, h⟩ := Dictionary.stores_of_compile himage
  have hseven : numeralLexicon.InOneForm
      ⟨"7", ["numeral", "cardinal"], .empty, ["number"]⟩
      ⟨"number", ["numeral"], 1, [""], [⟨"", ["cardinal"]⟩, ⟨"th", ["ordinal"]⟩]⟩
      ⟨"", ["cardinal"]⟩ "7" := by
    constructor
    case incomparable =>
      unfold Lexicon.Pattern.Incomparable
      decide
    all_goals decide
  have htables : MorphologyTables.empty.NamedIn numeralLexicon := by
    constructor
    all_goals decide
  have hnothing : [] ⊆ numeralLexicon.grammemeNames := List.nil_subset _
  refine ⟨image, d, _, himage, hload, Analyzer.ofTables_eq_ok h htables, ?_⟩
  intro triesAll traces
  constructor
  · exact inflectWritten_eq_ok h rfl hseven List.mem_cons_self (by decide) (fun name => Iff.rfl)
      hnothing rfl
  · exact inflectWritten_eq_ok h rfl hseven (List.mem_cons_of_mem _ List.mem_cons_self) (by decide)
      (fun name => Iff.rfl) hnothing rfl

/-! ## Words without case -/

variable {constraints : List String}

/-- A word without case is looked for as it is written, and its form is put into capitals. -/
theorem inflect_eq_map (f : Inflector) (hword : Case.Caseless word)
    (hnonempty : ∃ name ∈ constraints, name ≠ "") (disambiguation : List String) :
    f.inflect word ⟨constraints, [], disambiguation⟩ =
      (Option.map fun form =>
          if word = "" then form else Case.uppercase form f.analyzer.dictionary.locale) <$>
        f.inflectWord word constraints disambiguation := by
  by_cases hempty : word = ""
  · subst hempty
    simp only [if_true]
    rw [inflect_of_lowercase_eq f rfl (hword.lowercase_eq _) hnonempty, Option.map_id_fun', id_map]
    rfl
  · simp only [hempty, if_false]
    rw [inflect_of_isAllUpper f (hword.isAllUpper hempty) hnonempty, hword.lowercase_eq]
    rfl

/-- **Inflection of a word without case** finds the form that the word has as it is written, and
fails or finds nothing where this does.  The form of a word that is not empty is put into capitals,
which changes nothing but the suffix.  So the results are the same exactly if the word is empty or
uppercase keeps the form. -/
theorem inflect_caseless (f : Inflector) (hword : Case.Caseless word)
    (hnonempty : ∃ name ∈ constraints, name ≠ "") (disambiguation : List String) :
    (f.inflect word ⟨constraints, [], disambiguation⟩ =
      (Option.map fun form =>
          if word = "" then form else Case.uppercase form f.analyzer.dictionary.locale) <$>
        f.inflectWord word constraints disambiguation) ∧
    (f.inflect word ⟨constraints, [], disambiguation⟩ =
        f.inflectWord word constraints disambiguation ↔
      word = "" ∨ ∀ form, f.inflectWord word constraints disambiguation = .ok (some form) →
        ∀ c ∈ form.toList, Case.upperOf c = [c]) ∧
    ∀ form, word ≠ "" → f.inflectWord word constraints disambiguation = .ok (some form) →
      (form = word ∧ f.inflect word ⟨constraints, [], disambiguation⟩ = .ok (some word)) ∨
      ∃ stem ending suffix, f.analyzer.dictionary.Exchanges word stem ending suffix ∧
        form = stem ++ suffix ∧ f.inflect word ⟨constraints, [], disambiguation⟩ =
          .ok (some (stem ++ Case.uppercase suffix f.analyzer.dictionary.locale)) := by
  have hmap := inflect_eq_map f hword hnonempty disambiguation
  refine ⟨hmap, ?same, ?suffix⟩
  case same =>
    rw [hmap, Except.map_optionMap_eq_self_iff]
    by_cases hempty : word = ""
    · simp only [hempty, if_true, implies_true, true_or]
    · simp only [hempty, if_false, false_or, Text.Case.uppercase_eq_self_iff]
  case suffix =>
    intro form hne hform
    rw [hmap, hform, Except.map_ok, Option.map_some, if_neg hne]
    rcases eq_or_exchanges hform with rfl | ⟨stem, ending, suffix, hexchanges, rfl⟩
    · exact .inl ⟨rfl, by rw [hword.uppercase_eq]⟩
    · have hstem : Case.Caseless stem := by
        rw [hexchanges.word_eq, Text.Case.caseless_append_iff] at hword
        exact hword.1
      refine .inr ⟨stem, ending, suffix, hexchanges, rfl, ?_⟩
      rw [Text.Case.uppercase_append, hstem.uppercase_eq]

/-- The cardinal of the numeral has no letters either, and stays the same. -/
theorem inflect_caseless_cardinal : ∃ image d a, numeralLexicon.compile = .ok image ∧
    Dictionary.load image = .ok d ∧ Analyzer.ofTables d .empty = .ok a ∧
      Case.Caseless "7" ∧ (∃ name ∈ ["cardinal"], name ≠ "") ∧
      ∀ triesAll traces, inflect ⟨a, triesAll, traces⟩ "7" ⟨["cardinal"], [], []⟩ =
        inflectWord ⟨a, triesAll, traces⟩ "7" ["cardinal"] [] := by
  obtain ⟨image, d, a, himage, hload, ha, hword⟩ := exists_inflectWord_numeralLexicon
  have hnonempty : ∃ name ∈ ["cardinal"], name ≠ "" := ⟨_, List.mem_cons_self, by decide⟩
  refine ⟨image, d, a, himage, hload, ha, caseless_seven, hnonempty, ?_⟩
  intro triesAll traces
  apply (inflect_caseless ⟨a, triesAll, traces⟩ caseless_seven hnonempty []).2.1.2 (.inr ?_)
  intro form hform c hc
  obtain rfl := Option.some.inj (Except.ok.inj ((hword triesAll traces).1.symm.trans hform))
  exact (caseless_seven c hc).2

/-- **The suffix of a numeral is put into capitals.**  The numeral has no letters, and its ordinal
as it is written has small ones. -/
theorem inflect_capitalizes_suffix : ∃ image d a, numeralLexicon.compile = .ok image ∧
    Dictionary.load image = .ok d ∧ Analyzer.ofTables d .empty = .ok a ∧
      Case.Caseless "7" ∧ (∃ name ∈ ["ordinal"], name ≠ "") ∧
      ∀ triesAll traces,
        inflect ⟨a, triesAll, traces⟩ "7" ⟨["ordinal"], [], []⟩ = .ok (some "7TH") ∧
          inflectWord ⟨a, triesAll, traces⟩ "7" ["ordinal"] [] = .ok (some "7th") := by
  obtain ⟨image, d, a, himage, hload, ha, hword⟩ := exists_inflectWord_numeralLexicon
  have hnonempty : ∃ name ∈ ["ordinal"], name ≠ "" := ⟨_, List.mem_cons_self, by decide⟩
  have hcapitals (locale : Locale) : Case.uppercase "7th" locale = "7TH" := by
    unfold Text.Case.uppercase
    cases locale.hasTurkicCasing
    · decide +kernel
    · decide +kernel
  refine ⟨image, d, a, himage, hload, ha, caseless_seven, hnonempty, ?_⟩
  intro triesAll traces
  refine ⟨?_, (hword triesAll traces).2⟩
  rw [inflect_eq_map ⟨a, triesAll, traces⟩ caseless_seven hnonempty, (hword triesAll traces).2,
    Except.map_ok, Option.map_some, if_neg (by decide), hcapitals]

end Inflector

end Paradigm
