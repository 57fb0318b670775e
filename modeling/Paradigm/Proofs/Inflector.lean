import Mathlib
import Paradigm.Inflector
import Paradigm.Proofs.Dictionary
import Paradigm.Proofs.Pattern.Stem

/-!
# Inflection with compiled lexicons

A word that has one pattern is brought into any form of this pattern, provided that the grammemes of
the forms tell these apart and that the word is in one form only.  The other form is the stem of the
word with another suffix, whatever the tables of the language and the disambiguation are.

## Main definitions

* `Lexicon.Pattern.Incomparable`: no form of a pattern expresses all that another one does
* `Lexicon.InOneForm`: a word of a lexicon with its pattern, its form and its stem
* `Reading.Gives`: a reading gives a form of a word
* `MorphologyTables.NamedIn`: the tables of a language that are for a lexicon

## Main results

* `Analyzer.ofTables_eq_ok`: the analyzer of a compiled lexicon
* `Analyzer.readingsBy_eq_ok`: the reading of a word that is in one form only
* `Inflector.inflect_compile`: inflection by a compiled lexicon
-/

namespace Paradigm

/-- No form expresses all that another one does. -/
def Lexicon.Pattern.Incomparable (p : Lexicon.Pattern) : Prop :=
  p.forms.Pairwise fun f g => ¬ f.grammemes ⊆ g.grammemes ∧ ¬ g.grammemes ⊆ f.grammemes

/-- A word has one pattern, with incomparable forms, and is a stem in one of these forms only. -/
structure Lexicon.InOneForm (l : Lexicon) (e : Word) (p : Pattern) (i : Form) (stem : String) :
    Prop where
  mem_words : e ∈ l.words
  grammemes_ne_nil : e.grammemes ≠ []
  mem_patterns : p ∈ l.patterns
  inflections_eq : e.inflections = [p.id]
  incomparable : p.Incomparable
  mem_forms : i ∈ p.forms
  included : i.grammemes ⊆ e.grammemes
  only : ∀ f ∈ p.forms, f.grammemes ⊆ e.grammemes → f = i
  word_eq : e.word = stem ++ i.suffix

/-- The tables rank readings by grammemes of the lexicon and rule none out. -/
structure MorphologyTables.NamedIn (tables : MorphologyTables) (l : Lexicon) : Prop where
  lemmaAttributes : tables.lemmaAttributes ⊆ l.grammemeNames
  grammemePriorities : ∀ names ∈ tables.grammemePriorities, names ⊆ l.grammemeNames
  ignoreSets : tables.ignoreSets = []

/-! ## Analysis -/

namespace Analyzer

variable {d : Dictionary} {l : Lexicon} {maps : List PropertyMap} {slots : List (List Int32)}
  {data : List UInt64} {tables : MorphologyTables}

/-- Tables for a lexicon can be used with its dictionary. -/
theorem ofTables_eq_ok (h : d.store.Stores l maps slots data) (ht : tables.NamedIn l) :
    ofTables d tables = .ok (ofMasks d (tables.lemmaAttributes.map fun name => l.maskOf [name])
      (tables.grammemePriorities.map fun names => names.map fun name => l.maskOf [name]) []) := by
  have hpriorities : tables.grammemePriorities.mapM d.resolveEach =
      .ok (tables.grammemePriorities.map fun names => names.map fun name => l.maskOf [name]) := by
    apply mapM_eq_ok_map
    intro names hnames
    exact Dictionary.resolveEach_eq_ok h (ht.grammemePriorities names hnames)
  rw [ofTables, Dictionary.resolveEach_eq_ok h ht.lemmaAttributes, Except.ok_bind, hpriorities,
    Except.ok_bind, ht.ignoreSets]
  rfl

/-- Without sets that rule out readings, all of them count. -/
theorem important_eq_self {a : Analyzer} (ha : a.ignoreSets = []) (rs : List Reading) :
    a.important rs = rs := by
  unfold important
  rw [List.filter_eq_self]
  intro r _
  rw [isImportant, ha]
  rfl

/-- A word that ends in the suffix of the only form whose grammemes it has is read in this form. -/
theorem readingsBy_eq_ok {s : PatternStore} {v : Pattern} {forms : List Inflection}
    {i : Inflection} {mask : Mask} {word : String} (hcount : v.record.inflectionCount ≠ 0)
    (hforms : s.inflections v = .ok forms)
    (hone : forms.filter (fun k => mask.includes k.grammemes) = [i]) (hends : i.endsWord word) :
    readingsBy s word mask v = .ok [⟨i.grammemes ||| v.partsOfSpeech, some i⟩] := by
  have hsurface : s.surfaceForms v word mask = .ok [i] := by
    rw [PatternStore.surfaceForms, hforms, Except.map_ok,
      Inflection.ofSurface_eq_singleton hone hends]
  rw [readingsBy, if_neg hcount, hsurface]
  rfl

/-- The readings of a word are those that its patterns give, one pattern after the other. -/
theorem readingsByAll_eq_ok {s : PatternStore} {word : String} {mask : Mask} {ps : List Pattern}
    {rs : List Reading} : readingsByAll s word mask ps = .ok rs ↔
      ∃ rss, List.Forall₂ (fun p found => readingsBy s word mask p = .ok found) ps rss ∧
        rss.flatten = rs := by
  rw [readingsByAll, Except.map_eq_ok]
  simp only [mapM_eq_ok_iff]

end Analyzer

/-! ## The forms of a pattern of a lexicon -/

namespace Lexicon

variable {l : Lexicon} {t : SortedTable} {p : Pattern}

theorem resolved_forms (l : Lexicon) (p : Pattern) (s : PatternStore) (v : Paradigm.Pattern) :
    (l.resolved p).forms.map (s.inflectionOf v) =
      p.forms.map fun f => s.inflectionOf v (f.suffix, l.maskOf f.grammemes) := by
  rw [resolved, List.map_map]
  rfl

/-- Forms that are incomparable by names are so by sets. -/
theorem Pattern.Incomparable.resolved (h : p.Incomparable) (ht : l.GrammemesIn t)
    (hp : p ∈ l.patterns) (s : PatternStore) (v : Paradigm.Pattern) :
    Inflection.Incomparable ((l.resolved p).forms.map (s.inflectionOf v)) := by
  rw [resolved_forms, Inflection.Incomparable, List.pairwise_map]
  apply List.Pairwise.imp_of_mem _ h
  rintro f g hf hg ⟨hfg, hgf⟩
  have hfnames := formGrammemes_subset hp hf
  have hgnames := formGrammemes_subset hp hg
  exact ⟨fun hincludes => hgf ((ht.includes_maskOf hfnames hgnames).1 hincludes),
    fun hincludes => hfg ((ht.includes_maskOf hgnames hfnames).1 hincludes)⟩

/-- The only form that expresses no more than some names is found by their set. -/
theorem Pattern.Incomparable.filter_resolved (h : p.Incomparable) (ht : l.GrammemesIn t)
    (hp : p ∈ l.patterns) {names : List String} (hnames : names ⊆ l.grammemeNames)
    {i : Form} (hi : i ∈ p.forms) (hincluded : i.grammemes ⊆ names)
    (honly : ∀ f ∈ p.forms, f.grammemes ⊆ names → f = i) (s : PatternStore)
    (v : Paradigm.Pattern) :
    ((l.resolved p).forms.map (s.inflectionOf v)).filter
        (fun k => (l.maskOf names).includes k.grammemes) =
      [s.inflectionOf v (i.suffix, l.maskOf i.grammemes)] := by
  have hincludes : ∀ f ∈ p.forms, (l.maskOf names).includes (l.maskOf f.grammemes) ↔
      f.grammemes ⊆ names := fun f hf => ht.includes_maskOf hnames (formGrammemes_subset hp hf)
  have hone : p.forms.filter (fun f => (l.maskOf names).includes (l.maskOf f.grammemes)) =
      [i] := by
    -- a form that repeats the only one would be comparable with it
    apply filter_eq_singleton _ hi ((hincludes i hi).2 hincluded)
    apply List.Pairwise.imp_of_mem _ h
    rintro f g hf hg ⟨hfg, hgf⟩
    constructor
    · rintro rfl hmask
      rw [honly f hf ((hincludes f hf).1 hmask)] at hfg
      exact hfg (List.Subset.refl _)
    · rintro rfl hmask
      rw [honly g hg ((hincludes g hg).1 hmask)] at hgf
      exact hgf (List.Subset.refl _)
  rw [resolved_forms, List.filter_map]
  exact congrArg (List.map _) hone

end Lexicon

/-! ## Inflection -/

/-- A reading gives a form of a word: the word itself if it has no form of its own, or else what its
pattern gives if that is not empty. -/
def Reading.Gives (s : PatternStore) (target : Mask) (optional : List Mask) (word : String)
    (r : Reading) (form : String) : Prop :=
  match r.inflection with
  | none => form = word
  | some i =>
    form ≠ "" ∧ s.reinflect i.pattern i.grammemes target optional word = .ok (some form)

/-- What a reading gives whose forms can be read. -/
theorem Reading.gives_iff {s : PatternStore} {target : Mask} {optional : List Mask}
    {word form : String} {r : Reading} {i : Inflection} {forms : List Inflection}
    (hr : r.inflection = some i) (hforms : s.inflections i.pattern = .ok forms) :
    r.Gives s target optional word form ↔
      form ≠ "" ∧ Inflection.reinflect i.grammemes target optional word forms = some form := by
  unfold Gives
  simp only [hr, PatternStore.reinflect_eq_ok hforms, Except.ok.injEq]

/-- A reading is described if the name of its pattern can be read. -/
theorem Reading.exists_describe {d : Dictionary} {s : PatternStore} {r : Reading}
    (hs : d.store.patterns = some s)
    (h : ∀ i, r.inflection = some i → ∃ name, s.name i.pattern.id = .ok name) :
    ∃ text, r.describe d = .ok text := by
  unfold describe
  cases hi : r.inflection with
  | none => exact ⟨_, rfl⟩
  | some i =>
    obtain ⟨name, hname⟩ := h i hi
    rw [Option.elim_some, Inflection.summary, Dictionary.patternStore, hs]
    simp only [Except.ok_bind, hname, liftM_ok]
    exact ⟨_, rfl⟩

namespace Inflector

/-- The first reading is taken if it gives a form. -/
theorem firstForm_cons_of_gives {s : PatternStore} {target : Mask} {optional : List Mask}
    {word form : String} {r : Reading} (h : r.Gives s target optional word form)
    (rest : List Reading) : firstForm s target optional word (r :: rest) = .ok (some form) := by
  unfold Reading.Gives at h
  rw [firstForm]
  cases hr : r.inflection with
  | none =>
    simp only [hr] at h ⊢
    rw [h]
  | some i =>
    simp only [hr] at h ⊢
    obtain ⟨hne, hform⟩ := h
    simp only [hform, Except.ok_bind, Option.getD_some]
    rw [if_neg (by rwa [String.isEmpty_iff])]
    rfl

/-! ## Traces -/

/-- Readings are described if the names of their patterns can be read. -/
theorem exists_traceOf {f : Inflector} {s : PatternStore} {rs : List Reading}
    (hs : f.analyzer.dictionary.store.patterns = some s)
    (h : ∀ r ∈ rs, ∀ i, r.inflection = some i → ∃ name, s.name i.pattern.id = .ok name) :
    ∃ lines, f.traceOf rs = .ok lines := by
  unfold traceOf
  split
  · choose! text htext using fun r hr => Reading.exists_describe hs (h r hr)
    exact ⟨_, mapM_eq_ok_map htext⟩
  · exact ⟨[], rfl⟩

/-! ## Candidates -/

theorem candidates_singleton (f : Inflector) (disambiguation : List Mask) (r : Reading) :
    f.candidates disambiguation [r] = [r] := by
  unfold candidates
  split
  · exact List.mergeSort_singleton r
  · rw [best?_singleton]
    rfl

/-- A word that can be read is inflected by its readings, if it has any. -/
theorem inflectWritten_eq_inflectBy {f : Inflector} {s : PatternStore} {ps : List Pattern}
    {word : String} {mask : Mask} {rs : List Reading}
    (hmask : f.analyzer.dictionary.grammemes? word = .ok (some mask))
    (hs : f.analyzer.dictionary.store.patterns = some s)
    (hps : f.analyzer.dictionary.patternsForWord s word = .ok ps)
    (hrs : Analyzer.readingsByAll s word mask ps = .ok rs) (request : Request) :
    f.inflectWritten word request =
      if rs = [] then .ok none else f.inflectBy s word request rs := by
  unfold inflectWritten
  simp only [hmask, hs, hps, hrs, liftM_ok, Except.ok_bind]
  cases rs <;> rfl

/-- With names that are known the readings are described for a trace and then tried in order. -/
theorem inflectBy_eq_firstForm {f : Inflector} {request : Request} {target : Mask}
    {meant optional : List Mask}
    (htarget : f.analyzer.dictionary.resolve request.constraints = .ok target)
    (hmeant : f.analyzer.dictionary.resolveEach request.disambiguation = .ok meant)
    (hoptional : f.analyzer.dictionary.resolveEach request.optional = .ok optional)
    (s : PatternStore) (word : String) (rs : List Reading) :
    f.inflectBy s word request rs = (do
      let _ ← f.traceOf (f.candidates meant (f.analyzer.important rs))
      liftM (firstForm s target optional word (f.candidates meant (f.analyzer.important rs)))) := by
  rw [inflectBy, hmeant, Except.ok_bind]
  simp only [htarget, hoptional, Except.ok_bind]

/-- A reading in a form of a pattern gives the form that the pattern gives. -/
theorem inflectBy_singleton {f : Inflector} {l : Lexicon} {maps : List PropertyMap}
    {slots : List (List Int32)} {data : List UInt64}
    (h : f.analyzer.dictionary.store.Stores l maps slots data)
    (hignore : f.analyzer.ignoreSets = []) {request : Request}
    (hconstraints : request.constraints ⊆ l.grammemeNames)
    (hdisambiguation : request.disambiguation ⊆ l.grammemeNames)
    (hoptional : request.optional = []) {s : PatternStore}
    (hs : f.analyzer.dictionary.store.patterns = some s) {i : Inflection} {name : String}
    (hname : s.name i.pattern.id = .ok name) {forms : List Inflection}
    (hforms : s.inflections i.pattern = .ok forms) {word form : String}
    (hform : Inflection.reinflect i.grammemes (l.maskOf request.constraints) [] word forms =
      some form) (hne : form ≠ "") (mask : Mask) :
    f.inflectBy s word request [⟨mask, some i⟩] = .ok (some form) := by
  have hgives : Reading.Gives s (l.maskOf request.constraints) [] word ⟨mask, some i⟩ form :=
    (Reading.gives_iff rfl hforms).2 ⟨hne, hform⟩
  have hnone : f.analyzer.dictionary.resolveEach request.optional = .ok [] := by
    rw [hoptional, Dictionary.resolveEach_nil]
  obtain ⟨lines, hlines⟩ : ∃ lines, f.traceOf [⟨mask, some i⟩] = .ok lines := by
    apply exists_traceOf hs
    rintro r hr j hj
    obtain rfl := List.mem_singleton.1 hr
    obtain rfl := Option.some.inj hj
    exact ⟨name, hname⟩
  rw [inflectBy_eq_firstForm (Dictionary.resolve_eq_ok h hconstraints)
    (Dictionary.resolveEach_eq_ok h hdisambiguation) hnone, Analyzer.important_eq_self hignore,
    candidates_singleton, hlines, Except.ok_bind, firstForm_cons_of_gives hgives]
  rfl

/-- A word that is in one form is brought into another form of its pattern. -/
theorem inflectWritten_eq_ok {f : Inflector} {l : Lexicon} {maps : List PropertyMap}
    {slots : List (List Int32)} {data : List UInt64}
    (h : f.analyzer.dictionary.store.Stores l maps slots data)
    (hignore : f.analyzer.ignoreSets = []) {e : Lexicon.Word} {p : Lexicon.Pattern}
    {i j : Lexicon.Form} {stem : String} (he : l.InOneForm e p i stem) (hj : j ∈ p.forms)
    (hform : stem ++ j.suffix ≠ "") {request : Request}
    (hconstraints : ∀ name, name ∈ request.constraints ↔ name ∈ j.grammemes)
    (hdisambiguation : request.disambiguation ⊆ l.grammemeNames)
    (hoptional : request.optional = []) :
    f.inflectWritten e.word request = .ok (some (stem ++ j.suffix)) := by
  have hp := he.mem_patterns
  have hjnames := Lexicon.formGrammemes_subset hp hj
  -- the word has the view of its pattern
  have hne : e.inflections ≠ [] := by
    rw [he.inflections_eq]
    exact List.cons_ne_nil _ _
  obtain ⟨s, vs, hs, hvs, hall⟩ := Dictionary.patternsForWord_eq_ok h he.mem_words hne
  rw [he.inflections_eq] at hall
  obtain ⟨v, rfl, hshows⟩ : ∃ v, vs = [v] ∧ s.Shows (l.resolved p) v := by
    obtain _ | ⟨hv, _ | _⟩ := hall
    exact ⟨_, rfl, hv p hp rfl⟩
  -- it is read in one form
  have hforms := hshows.inflections_eq
  have hcount : v.record.inflectionCount ≠ 0 := by
    rw [hshows.inflectionCount, Lexicon.resolved, List.length_map]
    exact (List.length_pos_of_mem he.mem_forms).ne'
  have hone := he.incomparable.filter_resolved h.grammemes hp
    (Lexicon.grammemes_subset he.mem_words) he.mem_forms he.included he.only s v
  have hends : (s.inflectionOf v (i.suffix, l.maskOf i.grammemes)).endsWord e.word := by
    rw [he.word_eq]
    exact Inflection.endsWord_append _ _
  have hreading := Analyzer.readingsBy_eq_ok hcount hforms hone hends
  have hmask := Dictionary.grammemes?_eq_ok h he.mem_words he.grammemes_ne_nil
  have hreadings := Analyzer.readingsByAll_eq_ok.2 ⟨_, .cons hreading .nil, List.flatten_singleton⟩
  rw [inflectWritten_eq_inflectBy hmask hs hvs hreadings, if_neg (List.cons_ne_nil _ _)]
  -- the pattern exchanges the suffixes
  have hmem : ∀ k ∈ p.forms, s.inflectionOf v (k.suffix, l.maskOf k.grammemes) ∈
      (l.resolved p).forms.map (s.inflectionOf v) := by
    intro k hk
    rw [Lexicon.resolved_forms]
    exact List.mem_map_of_mem hk
  have htarget : l.maskOf request.constraints = l.maskOf j.grammemes :=
    h.grammemes.maskOf_congr hjnames hconstraints
  apply inflectBy_singleton h hignore _ hdisambiguation hoptional hs hshows.name_eq hforms _ hform
  · intro name hname
    exact hjnames ((hconstraints name).1 hname)
  · rw [htarget, he.word_eq]
    exact (he.incomparable.resolved h.grammemes hp s v).reinflect_append (hmem i he.mem_forms)
      (hmem j hj) []

/-- **A word of a compiled lexicon that is in one form of its pattern is brought into any other.**
The result is the stem with the suffix of the wanted form, for all tables of the language that rule
out no readings, whatever reading is meant, whether or not all readings are tried, and whether or
not a trace is kept. -/
theorem inflect_compile {l : Lexicon} {image : View} (hcompile : l.compile = .ok image)
    {e : Lexicon.Word} {p : Lexicon.Pattern} {i j : Lexicon.Form} {stem : String}
    (he : l.InOneForm e p i stem) (hcase : Text.Case.isAllUpper e.word = false)
    (hj : j ∈ p.forms) (hform : stem ++ j.suffix ≠ "") {constraints disambiguation : List String}
    (hconstraints : ∀ name, name ∈ constraints ↔ name ∈ j.grammemes)
    (hnonempty : ∃ name ∈ constraints, name ≠ "")
    (hdisambiguation : disambiguation ⊆ l.grammemeNames) {tables : MorphologyTables}
    (htables : tables.NamedIn l) :
    ∃ d a, Dictionary.load image = .ok d ∧ Analyzer.ofTables d tables = .ok a ∧
      ∀ triesAll traces, inflect ⟨a, triesAll, traces⟩ e.word ⟨constraints, [], disambiguation⟩ =
        .ok (some (stem ++ j.suffix)) := by
  obtain ⟨d, maps, slots, data, hload, h⟩ := Dictionary.stores_of_compile hcompile
  refine ⟨d, _, hload, Analyzer.ofTables_eq_ok h htables, ?_⟩
  intro triesAll traces
  have hall : ¬ constraints.all String.isEmpty := by
    obtain ⟨name, hname, hne⟩ := hnonempty
    rw [List.all_eq_true]
    intro hall
    exact hne (String.isEmpty_iff.1 (hall name hname))
  -- a word that is not in capitals is inflected as it is written
  rw [inflect, if_neg hall]
  simp only [hcase, Bool.false_eq_true, if_false]
  rw [inflectWritten_eq_ok h rfl he hj hform hconstraints hdisambiguation rfl]
  rfl

theorem inflect_compile_cats : ∃ image d a, Dictionary.catLexicon.compile = .ok image ∧
    Dictionary.load image = .ok d ∧ Analyzer.ofTables d .empty = .ok a ∧
      ∀ triesAll traces,
        inflect ⟨a, triesAll, traces⟩ "cat" ⟨["plural"], [], ["noun"]⟩ = .ok (some "cats") := by
  obtain ⟨image, himage⟩ := Dictionary.exists_compile_catLexicon
  have hcat : Dictionary.catLexicon.InOneForm
      ⟨"cat", ["noun", "singular"], .empty, ["regular"]⟩
      ⟨"regular", ["noun"], 1, [""], [⟨"", ["singular"]⟩, ⟨"s", ["plural"]⟩]⟩
      ⟨"", ["singular"]⟩ "cat" := by
    constructor
    case incomparable =>
      unfold Lexicon.Pattern.Incomparable
      decide
    all_goals decide
  have htables : MorphologyTables.empty.NamedIn Dictionary.catLexicon := by
    constructor
    all_goals decide
  have hnoun : ["noun"] ⊆ Dictionary.catLexicon.grammemeNames := by decide
  obtain ⟨d, a, hload, ha, hinflect⟩ := inflect_compile himage hcat (by decide +kernel)
    (List.mem_cons_of_mem _ List.mem_cons_self) (by decide) (fun name => Iff.rfl)
    ⟨"plural", List.mem_cons_self, by decide⟩ hnoun htables
  exact ⟨image, d, a, himage, hload, ha, hinflect⟩

end Inflector

end Paradigm
