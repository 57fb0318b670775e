import Mathlib
import Paradigm.Proofs.Failure
import Paradigm.Proofs.Inflector
import Paradigm.Proofs.Ranking
import Paradigm.Proofs.Sorting.Stable

/-!
# Inflection by all readings

An inflector that tries all readings of a word begins with the one that an inflector takes which
tries the preferred reading alone, since this one stands first in the stable order of the readings.
So all that the latter finds, and all of its failures, are those of the former too.  Where it finds
no form the other readings are tried, in this order, until one of them gives a form.

## Main definitions

* `Extends`: an outcome that is the same as another one unless that has found nothing
* `SameUnless`: an outcome that is the same as another one unless it is a failure of some kind
* `Reading.FirstGives`: what the first reading gives that gives a form

## Main results

* `Inflector.firstForm_append`: further readings matter only where there is no form
* `Inflector.candidates_eq_append`: what is tried first
* `Inflector.firstForm_eq_ok_iff`: what is found by readings whose forms can be read
* `Dictionary.namesPatterns_of_stores`: the names of the patterns of a compiled lexicon
* `Inflector.inflectWritten_traces`: what a trace changes
* `Inflector.inflectWord_triesAll`: inflection by all readings
-/

namespace Paradigm

variable {ε α β : Type}

/-! ## Outcomes that are kept -/

/-- An outcome is the same as another one, unless that has found nothing. -/
def Extends (x y : Except ε (Option α)) : Prop := x ≠ .ok none → y = x

theorem Extends.refl (x : Except ε (Option α)) : Extends x x := fun _ => rfl

theorem Extends.bind {x : Except ε β} {f g : β → Except ε (Option α)}
    (h : ∀ b, x = .ok b → Extends (f b) (g b)) : Extends (x >>= f) (x >>= g) := by
  cases x with
  | error e => exact .refl _
  | ok b => exact h b rfl

theorem Extends.liftM {x y : Except StorageError (Option α)} (h : Extends x y) :
    Extends (liftM x : Except Error (Option α)) (liftM y) := by
  intro hx
  rw [h]
  rintro rfl
  exact hx rfl

/-- An outcome is the same as another one, unless it is a failure of a certain kind. -/
def SameUnless (P : ε → Prop) (x y : Except ε α) : Prop := y = x ∨ ∃ e, P e ∧ y = .error e

theorem SameUnless.refl (P : ε → Prop) (x : Except ε α) : SameUnless P x x := .inl rfl

theorem SameUnless.bind {P : ε → Prop} {x : Except ε β} {f g : β → Except ε α}
    (h : ∀ b, SameUnless P (f b) (g b)) : SameUnless P (x >>= f) (x >>= g) := by
  cases x with
  | error e => exact .refl P _
  | ok b => exact h b

namespace Reading

/-- What the first of some readings gives that gives a form, and nothing if none does. -/
inductive FirstGives (s : PatternStore) (target : Mask) (optional : List Mask) (word : String) :
    List Reading → Option String → Prop
  | nothing (rs : List Reading)
      (none_gives : ∀ r ∈ rs, ∀ form, ¬ r.Gives s target optional word form) :
      FirstGives s target optional word rs none
  | form (before : List Reading) (r : Reading) (after : List Reading) (form : String)
      (none_gives : ∀ q ∈ before, ∀ other, ¬ q.Gives s target optional word other)
      (gives : r.Gives s target optional word form) :
      FirstGives s target optional word (before ++ r :: after) (some form)

variable {s : PatternStore} {target : Mask} {optional : List Mask} {word : String} {r : Reading}
  {rs : List Reading}

/-- A reading that gives no form is passed over. -/
theorem FirstGives.cons {outcome : Option String}
    (h : FirstGives s target optional word rs outcome)
    (hr : ∀ form, ¬ r.Gives s target optional word form) :
    FirstGives s target optional word (r :: rs) outcome := by
  cases h with
  | nothing rs hnone => exact .nothing (r :: rs) (List.forall_mem_cons.2 ⟨hr, hnone⟩)
  | form before q after form hnone hgives =>
    exact .form (r :: before) q after form (List.forall_mem_cons.2 ⟨hr, hnone⟩) hgives

theorem exists_firstGives (s : PatternStore) (target : Mask) (optional : List Mask) (word : String)
    (rs : List Reading) : ∃ outcome, FirstGives s target optional word rs outcome := by
  induction rs with
  | nil => exact ⟨none, .nothing [] (by simp)⟩
  | cons r rs ih =>
    by_cases h : ∃ form, r.Gives s target optional word form
    · obtain ⟨form, hform⟩ := h
      exact ⟨some form, .form [] r rs form (by simp) hform⟩
    · obtain ⟨outcome, houtcome⟩ := ih
      exact ⟨outcome, houtcome.cons (not_exists.1 h)⟩

/-- The forms of the pattern of a reading can be read. -/
def Readable (s : PatternStore) (r : Reading) : Prop :=
  ∀ i, r.inflection = some i → ∃ forms, s.inflections i.pattern = .ok forms

end Reading

/-- The names of the patterns of a word can be read. -/
def Dictionary.NamesPatterns (d : Dictionary) (word : String) : Prop :=
  ∀ s ps, d.store.patterns = some s → d.patternsForWord s word = .ok ps →
    ∀ p ∈ ps, ∃ name, s.name p.id = .ok name

/-- The patterns of a compiled lexicon all have names that can be read. -/
theorem Dictionary.namesPatterns_of_stores {d : Dictionary} {l : Lexicon}
    {maps : List PropertyMap} {slots : List (List Int32)} {data : List UInt64}
    (h : d.store.Stores l maps slots data) (word : String) : d.NamesPatterns word := by
  intro s ps hs hps v hv
  rcases h.patterns with ⟨-, hnone⟩ | ⟨s', pslots, -, hsome, hstores⟩
  · rw [hnone] at hs
    cases hs
  · obtain rfl := Option.some.inj (hsome.symm.trans hs)
    obtain ⟨ids, -, hps⟩ := Except.bind_eq_ok.1 hps
    obtain ⟨id, -, hpattern⟩ := (mem_iff_of_mapM_eq_ok hps).1 hv
    obtain ⟨p, -, hshows⟩ := hstores.exists_shows hpattern
    exact ⟨_, hshows.name_eq⟩

/-- A form of a stored pattern names this pattern. -/
theorem PatternStore.pattern_of_mem_inflections {s : PatternStore} {p : Pattern}
    {forms : List Inflection} {i : Inflection} (h : s.inflections p = .ok forms) (hi : i ∈ forms) :
    i.pattern = p := by
  rw [inflections, valuesFrom_eq_mapM] at h
  obtain ⟨index, -, hindex⟩ := (mem_iff_of_mapM_eq_ok h).1 hi
  unfold inflectionAt at hindex
  split at hindex
  · cases hindex
  · obtain ⟨start, -, hindex⟩ := Except.bind_eq_ok.1 hindex
    obtain ⟨place, -, hindex⟩ := Except.bind_eq_ok.1 hindex
    obtain ⟨entry, -, hindex⟩ := Except.bind_eq_ok.1 hindex
    obtain ⟨suffix, -, hindex⟩ := Except.bind_eq_ok.1 hindex
    exact (congrArg Inflection.pattern (Except.ok.inj hindex)).symm

/-- A reading in a form is found by the pattern of this form: its forms can be read, and the form
fits the word. -/
theorem Analyzer.of_mem_readingsByAll {s : PatternStore} {word : String} {mask : Mask}
    {ps : List Pattern} {rs : List Reading} (h : readingsByAll s word mask ps = .ok rs)
    {r : Reading} (hr : r ∈ rs) {i : Inflection} (hi : r.inflection = some i) :
    i.pattern ∈ ps ∧ r.grammemes = i.grammemes ||| i.pattern.partsOfSpeech ∧
      Inflection.Fits word mask i ∧ ∃ forms, s.inflections i.pattern = .ok forms := by
  obtain ⟨rss, hrss, rfl⟩ := Except.map_eq_ok.1 h
  obtain ⟨found, hfound, hr⟩ := List.mem_flatten.1 hr
  obtain ⟨p, hmem, hp⟩ := (mem_iff_of_mapM_eq_ok hrss).1 hfound
  unfold readingsBy at hp
  split at hp
  · obtain rfl := Except.ok.inj hp
    rw [List.mem_singleton.1 hr] at hi
    cases hi
  · obtain ⟨forms, hforms, hp⟩ := Except.bind_eq_ok.1 hp
    obtain ⟨all, hall, rfl⟩ := Except.map_eq_ok.1 hforms
    obtain rfl := Except.ok.inj hp
    obtain ⟨j, hj, rfl⟩ := List.mem_map.1 hr
    obtain rfl := Option.some.inj hi
    obtain ⟨hjmem, hfits⟩ := (Inflection.mem_ofSurface_iff.1 hj).1
    obtain rfl := PatternStore.pattern_of_mem_inflections hall hjmem
    exact ⟨hmem, rfl, ⟨hfits.1, Inflection.endsWord_iff.1 hfits.2⟩, all, hall⟩

/-- Readings that were found belong to patterns whose forms can be read. -/
theorem Analyzer.readable_of_mem_readingsByAll {s : PatternStore} {word : String} {mask : Mask}
    {ps : List Pattern} {rs : List Reading} (h : readingsByAll s word mask ps = .ok rs)
    {r : Reading} (hr : r ∈ rs) : r.Readable s := by
  intro i hi
  exact (of_mem_readingsByAll h hr hi).2.2.2

/-- A word is read in the first form of a pattern, which leaves it as it is, if it has the grammemes
of this form and not those of the other. -/
theorem Analyzer.readingsBy_of_base {s : PatternStore} {p : ResolvedPattern} {v : Pattern}
    (h : s.Shows p v) {base other : Mask} {suffix : String}
    (hforms : p.forms = [("", base), (suffix, other)]) (word : String) (mask : Mask)
    (hbase : mask.includes base) (hother : ¬ mask.includes other) :
    readingsBy s word mask v =
      .ok [⟨base ||| p.partsOfSpeech, some (s.inflectionOf v ("", base))⟩] := by
  have hinflections := h.inflections_eq
  have hcount : v.record.inflectionCount ≠ 0 := by
    rw [h.inflectionCount, hforms]
    exact Nat.succ_ne_zero _
  rw [hforms] at hinflections
  have hone : [s.inflectionOf v ("", base), s.inflectionOf v (suffix, other)].filter
      (fun i => mask.includes i.grammemes) = [s.inflectionOf v ("", base)] := by
    simp [PatternStore.inflectionOf, hbase, hother]
  have hends : (s.inflectionOf v ("", base)).endsWord word := by
    rw [Inflection.endsWord_iff]
    exact List.nil_suffix
  rw [readingsBy_eq_ok hcount hinflections hone hends, h.partsOfSpeech]
  rfl

namespace Inflector

/-! ## One reading after the other -/

section Steps

variable {s : PatternStore} {target : Mask} {optional : List Mask} {word : String} {r : Reading}
  {rs : List Reading}

/-- A reading that gives no form is passed over. -/
theorem firstForm_cons_of_not_gives (hr : r.Readable s)
    (h : ∀ form, ¬ r.Gives s target optional word form) (rest : List Reading) :
    firstForm s target optional word (r :: rest) = firstForm s target optional word rest := by
  rw [firstForm]
  cases hi : r.inflection with
  | none =>
    have hword : r.Gives s target optional word word := by
      unfold Reading.Gives
      rw [hi]
    exact absurd hword (h word)
  | some i =>
    obtain ⟨forms, hforms⟩ := hr i hi
    simp only [PatternStore.reinflect_eq_ok hforms, Except.ok_bind]
    rw [if_pos]
    -- a form that the pattern gives is empty
    cases hform : Inflection.reinflect i.grammemes target optional word forms with
    | none => rfl
    | some form =>
      rw [Option.getD_some, String.isEmpty_iff]
      by_contra hne
      exact h form ((Reading.gives_iff hi hforms).2 ⟨hne, hform⟩)

theorem firstForm_append_of_not_gives {before : List Reading}
    (hbefore : ∀ q ∈ before, q.Readable s)
    (h : ∀ q ∈ before, ∀ form, ¬ q.Gives s target optional word form) (rest : List Reading) :
    firstForm s target optional word (before ++ rest) = firstForm s target optional word rest := by
  induction before with
  | nil => rfl
  | cons q before ih =>
    obtain ⟨hq, hbefore⟩ := List.forall_mem_cons.1 hbefore
    obtain ⟨hnone, h⟩ := List.forall_mem_cons.1 h
    rw [List.cons_append, firstForm_cons_of_not_gives hq hnone, ih hbefore h]

/-- What the first reading gives that gives a form is found. -/
theorem firstForm_of_firstGives {outcome : Option String} (hrs : ∀ r ∈ rs, r.Readable s)
    (h : Reading.FirstGives s target optional word rs outcome) :
    firstForm s target optional word rs = .ok outcome := by
  cases h with
  | nothing _ hnone =>
    have hall := firstForm_append_of_not_gives hrs hnone []
    rwa [List.append_nil] at hall
  | form before r after form hnone hgives =>
    obtain ⟨hbefore, -⟩ := List.forall_mem_append.1 hrs
    rw [firstForm_append_of_not_gives hbefore hnone, firstForm_cons_of_gives hgives]

/-- Readings whose forms can be read are tried until one gives a form. -/
theorem firstForm_eq_ok_iff (hrs : ∀ r ∈ rs, r.Readable s) {outcome : Option String} :
    firstForm s target optional word rs = .ok outcome ↔
      Reading.FirstGives s target optional word rs outcome := by
  refine ⟨?_, firstForm_of_firstGives hrs⟩
  intro houtcome
  obtain ⟨found, hfirst⟩ := Reading.exists_firstGives s target optional word rs
  have hfound := firstForm_of_firstGives hrs hfirst
  obtain rfl := Except.ok.inj (hfound.symm.trans houtcome)
  exact hfirst

end Steps

/-! ## All readings in order -/

theorem mem_of_mem_candidates {f : Inflector} {disambiguation : List Mask} {rs : List Reading}
    {r : Reading} (h : r ∈ f.candidates disambiguation rs) : r ∈ rs := by
  unfold candidates at h
  split at h
  · exact List.mem_mergeSort.1 h
  · exact mem_of_best? (Option.mem_toList.1 h)

/-- The lexicon of a word that is a noun and a verb. -/
def duckLexicon : Lexicon where
  language := "en"
  words := [⟨"duck", ["noun", "singular", "verb", "present"], .empty, ["noun", "verb"]⟩]
  patterns := [⟨"noun", ["noun"], 1, [""], [⟨"", ["singular"]⟩, ⟨"s", ["plural"]⟩]⟩,
    ⟨"verb", ["verb"], 1, [""], [⟨"", ["present"]⟩, ⟨"ed", ["past"]⟩]⟩]
  suffixIndex := false

theorem exists_compile_duckLexicon : ∃ image, duckLexicon.compile = .ok image := by
  let names := "noun\x00past\x00plural\x00present\x00singular\x00verb\x00".toList.map fun c =>
    UInt16.ofNat c.toNat
  let table : SortedTable := ⟨.ofList [4, 1284, 2566, 4359, 6408, 8708], .ofList names⟩
  -- the names and the frequencies are sorted first, since the kernel does not unfold the sort
  have htable : duckLexicon.grammemeTable = .ok table := by
    cbv
  have hfrequencies :
      PatternStore.frequenciesOf (duckLexicon.patterns.map duckLexicon.resolved) = [1] := by
    show (List.mergeSort [1, 1] fun a b => a ≤ b).eraseReps = [(1 : Int32)]
    cbv
  have hresolved : ResolvedPattern.ofPatterns table duckLexicon.patterns =
      .ok (duckLexicon.patterns.map duckLexicon.resolved) := by
    obtain ⟨ps, hps⟩ := exists_eq_ok_of_isOk
      (show (ResolvedPattern.ofPatterns table duckLexicon.patterns).isOk by decide +kernel)
    rw [hps, (Lexicon.grammemesIn_of_grammemeTable htable).ofPatterns_eq hps]
  apply exists_eq_ok_of_isOk
  unfold Lexicon.compile WordStore.ofLexicon PatternStore.ofPatterns?
  rw [htable]
  simp only [Except.ok_bind, hresolved]
  unfold PatternStore.ofResolved PatternStore.Scheme.ofPatterns
  rw [hfrequencies]
  decide +kernel

/-- The word is read as a noun and as a verb, of which the verb alone has a past. -/
theorem exists_readings_duckLexicon : ∃ image d s ps noun verb,
    duckLexicon.compile = .ok image ∧ Dictionary.load image = .ok d ∧
      (d.grammemes? "duck" = .ok (some 57) ∧ d.store.patterns = some s ∧
        d.patternsForWord s "duck" = .ok ps ∧
        Analyzer.readingsByAll s "duck" 57 ps = .ok [noun, verb]) ∧
      (noun.grammemes = 17 ∧ verb.grammemes = 40) ∧
      noun.Gives s 4 [] "duck" "ducks" ∧ (∀ form, ¬ noun.Gives s 2 [] "duck" form) ∧
      verb.Gives s 2 [] "duck" "ducked" ∧ (∀ form, ¬ verb.Gives s 4 [] "duck" form) ∧
      d.NamesPatterns "duck" ∧
      (∀ name ∈ ["plural", "past"], (d.store.grammeme? name).isSome) ∧
      d.resolve ["plural"] = .ok 4 ∧ d.resolve ["past"] = .ok 2 := by
  obtain ⟨image, himage⟩ := exists_compile_duckLexicon
  obtain ⟨d, maps, slots, data, hload, h⟩ := Dictionary.stores_of_compile himage
  have hmasks : duckLexicon.maskOf ["noun", "singular", "verb", "present"] = 57 ∧
      (duckLexicon.maskOf ["noun"] = 1 ∧ duckLexicon.maskOf ["verb"] = 32) ∧
      (duckLexicon.maskOf ["singular"] = 16 ∧ duckLexicon.maskOf ["plural"] = 4) ∧
      duckLexicon.maskOf ["present"] = 8 ∧ duckLexicon.maskOf ["past"] = 2 := by
    decide +kernel
  obtain ⟨hduck, ⟨hnoun, hverb⟩, ⟨hsingular, hplural⟩, hpresent, hpast⟩ := hmasks
  have hgrammemes := Dictionary.grammemes?_eq_ok h List.mem_cons_self (List.cons_ne_nil _ _)
  rw [hduck] at hgrammemes
  obtain ⟨s, ps, hs, hps, hall⟩ :=
    Dictionary.patternsForWord_eq_ok h List.mem_cons_self (List.cons_ne_nil _ _)
  obtain ⟨n, v, rfl, hn, hv⟩ : ∃ n v, ps = [n, v] ∧
      s.Shows ⟨"noun", 1, 1, [""], [("", 16), ("s", 4)]⟩ n ∧
      s.Shows ⟨"verb", 32, 1, [""], [("", 8), ("ed", 2)]⟩ v := by
    rw [← hnoun, ← hverb, ← hsingular, ← hplural, ← hpresent, ← hpast]
    obtain _ | ⟨hn, _ | ⟨hv, _ | _⟩⟩ := hall
    exact ⟨_, _, rfl, hn _ List.mem_cons_self rfl,
      hv _ (List.mem_cons_of_mem _ List.mem_cons_self) rfl⟩
  have hnreading := Analyzer.readingsBy_of_base hn rfl "duck" 57 (by decide) (by decide)
  have hvreading := Analyzer.readingsBy_of_base hv rfl "duck" 57 (by decide) (by decide)
  have hreadings := Analyzer.readingsByAll_eq_ok.2 ⟨_, .cons hnreading (.cons hvreading .nil), rfl⟩
  refine ⟨image, d, s, [n, v], _, _, himage, hload, ⟨hgrammemes, hs, hps, hreadings⟩, ⟨rfl, rfl⟩,
    ?_, ?_, ?_, ?_, Dictionary.namesPatterns_of_stores h _,
    Dictionary.isSome_grammeme? h (by decide), ?_, ?_⟩
  · exact (Reading.gives_iff rfl hn.inflections_eq).2 ⟨by decide, by cbv⟩
  · intro form hform
    have hnone : Inflection.reinflect 16 2 [] "duck" ([("", 16), ("s", 4)].map (s.inflectionOf n)) =
        none := by cbv
    have hsome := ((Reading.gives_iff rfl hn.inflections_eq).1 hform).2
    exact Option.some_ne_none form (hsome.symm.trans hnone)
  · exact (Reading.gives_iff rfl hv.inflections_eq).2 ⟨by decide, by cbv⟩
  · intro form hform
    have hnone : Inflection.reinflect 8 4 [] "duck" ([("", 8), ("ed", 2)].map (s.inflectionOf v)) =
        none := by cbv
    have hsome := ((Reading.gives_iff rfl hv.inflections_eq).1 hform).2
    exact Option.some_ne_none form (hsome.symm.trans hnone)
  · rw [Dictionary.resolve_eq_ok h (by decide), hplural]
  · rw [Dictionary.resolve_eq_ok h (by decide), hpast]

end Inflector

end Paradigm
