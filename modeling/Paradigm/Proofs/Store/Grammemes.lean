import Mathlib
import Paradigm.Proofs.Grammeme
import Paradigm.Proofs.Table.SortedTable
import Paradigm.Store.Words.Building

/-!
# The grammemes of a lexicon

The bit of a grammeme is its rank among the names of all grammemes of the lexicon, in the order of
their code units.  The sets of a dictionary are the sets of names of the lexicon, bit by bit.

## Main definitions

* `Lexicon.grammemeRank`: the rank of a name
* `Lexicon.maskOf`: the set of grammemes with given names
* `Lexicon.resolved`: a pattern with its sets of grammemes

## Main results

* `Lexicon.GrammemesIn.mask_eq`: sets that were resolved in the table of a lexicon
* `Lexicon.GrammemesIn.includes_maskOf`: inclusion of sets is inclusion of names
-/

namespace Paradigm

namespace Lexicon

/-- The number of distinct names of grammemes that come before a name in the order of code units. -/
def grammemeRank (l : Lexicon) (name : String) : Nat :=
  (l.grammemeNames.toFinset.filter fun other => Text.units other < Text.units name).card

theorem grammemes_subset {l : Lexicon} {w : Lexicon.Word} (hw : w ∈ l.words) :
    w.grammemes ⊆ l.grammemeNames := by
  intro name hname
  exact List.mem_append_left _ (List.mem_flatMap.2 ⟨w, hw, hname⟩)

theorem formGrammemes_subset {l : Lexicon} {p : Lexicon.Pattern} {f : Lexicon.Form}
    (hp : p ∈ l.patterns) (hf : f ∈ p.forms) : f.grammemes ⊆ l.grammemeNames := by
  intro name hname
  apply List.mem_append_right
  rw [List.mem_flatMap]
  exact ⟨p, hp, List.mem_append_right _ (List.mem_flatMap.2 ⟨f, hf, hname⟩)⟩

/-- The set of grammemes with given names. -/
def maskOf (l : Lexicon) (names : List String) : Mask :=
  Mask.union (names.map fun name => Mask.single (l.grammemeRank name))

/-- A pattern with its sets of grammemes. -/
def resolved (l : Lexicon) (p : Lexicon.Pattern) : ResolvedPattern where
  name := p.id
  partsOfSpeech := l.maskOf p.pos
  frequency := p.frequency
  lemmaSuffixes := p.lemmaSuffixes
  forms := p.forms.map fun f => (f.suffix, l.maskOf f.grammemes)

/-- A table numbers the grammemes of a lexicon by their ranks. -/
structure GrammemesIn (l : Lexicon) (t : SortedTable) : Prop where
  stores : t.Stores (sortedStrings l.grammemeNames)
  length_le : (sortedStrings l.grammemeNames).length ≤ Mask.capacity

theorem grammemesIn_of_grammemeTable {l : Lexicon} {t : SortedTable}
    (h : l.grammemeTable = .ok t) : l.GrammemesIn t := by
  obtain ⟨t', ht, h⟩ := Except.bind_eq_ok.1 h
  have hstores := SortedTable.stores_of_ofList (liftM_eq_ok.1 ht)
  dsimp only at h
  split at h
  · cases h
  · rename_i hsize
    obtain rfl := Except.ok.inj h
    refine ⟨hstores, ?_⟩
    rw [← hstores.size_eq]
    exact Nat.not_lt.1 hsize

namespace GrammemesIn

variable {l : Lexicon} {t : SortedTable} {name other : String} {names others : List String}

theorem mappedForm (h : l.GrammemesIn t) : l.GrammemesIn t.mappedForm :=
  ⟨h.stores.mappedForm, h.length_le⟩

/-- The size of the table is the number of distinct names. -/
theorem size_eq (h : l.GrammemesIn t) : t.size = l.grammemeNames.toFinset.card := by
  have hcard := card_filter_toFinset h.stores.nodup (fun _ => mem_sortedStrings) fun _ => True
  simpa [h.stores.size_eq] using hcard.symm

/-! ## Ranks -/

/-- The identifier of a grammeme is its rank. -/
theorem identifier?_eq (h : l.GrammemesIn t) (hname : name ∈ l.grammemeNames) :
    t.identifier? name = some (l.grammemeRank name) := by
  rw [h.stores.identifier?_eq_countP (mem_sortedStrings.2 hname), grammemeRank,
    card_filter_toFinset h.stores.nodup (fun _ => mem_sortedStrings)]

/-- Only the grammemes of the lexicon have identifiers. -/
theorem mem_of_identifier? (h : l.GrammemesIn t) {id : Nat} (hid : t.identifier? name = some id) :
    name ∈ l.grammemeNames :=
  mem_sortedStrings.1 (h.stores.numbers.mem_iff.2 ⟨id, hid⟩)

theorem grammemeRank_lt (h : l.GrammemesIn t) (hname : name ∈ l.grammemeNames) :
    l.grammemeRank name < Mask.capacity := by
  have hlt : l.grammemeRank name < t.size := h.stores.numbers.lt_size (h.identifier?_eq hname)
  rw [h.stores.size_eq] at hlt
  exact hlt.trans_le h.length_le

/-- Different grammemes have different ranks. -/
theorem grammemeRank_inj (h : l.GrammemesIn t) (hname : name ∈ l.grammemeNames)
    (hother : other ∈ l.grammemeNames) (heq : l.grammemeRank name = l.grammemeRank other) :
    name = other := by
  have hid : t.identifier? other = some (l.grammemeRank name) := by
    rw [heq]
    exact h.identifier?_eq hother
  exact h.stores.numbers.eq_of_find? (h.identifier?_eq hname) hid

/-! ## Sets -/

theorem maskOf_eq (l : Lexicon) (names : List String) :
    l.maskOf names = Mask.union ((names.map l.grammemeRank).map Mask.single) := by
  rw [maskOf, List.map_map]
  rfl

theorem lt_of_mem_ranks (h : l.GrammemesIn t) (hnames : names ⊆ l.grammemeNames) :
    ∀ id ∈ names.map l.grammemeRank, id < Mask.capacity := by
  intro id hid
  obtain ⟨name, hname, rfl⟩ := List.mem_map.1 hid
  exact h.grammemeRank_lt (hnames hname)

theorem mem_ranks (h : l.GrammemesIn t) (hnames : names ⊆ l.grammemeNames)
    (hname : name ∈ l.grammemeNames) :
    l.grammemeRank name ∈ names.map l.grammemeRank ↔ name ∈ names := by
  rw [List.mem_map]
  constructor
  · rintro ⟨other, hother, heq⟩
    rwa [← h.grammemeRank_inj (hnames hother) hname heq]
  · intro hmem
    exact ⟨name, hmem, rfl⟩

/-- The bits of a set of names are their ranks. -/
theorem testBit_maskOf (h : l.GrammemesIn t) (hnames : names ⊆ l.grammemeNames) (i : Nat) :
    (l.maskOf names).toNat.testBit i ↔ i ∈ names.map l.grammemeRank := by
  rw [maskOf_eq, Mask.testBit_union_single (h.lt_of_mem_ranks hnames)]

/-- All grammemes together have the lowest bits, one for each distinct name. -/
theorem testBit_maskOf_all (h : l.GrammemesIn t) (i : Nat) :
    (l.maskOf l.grammemeNames).toNat.testBit i ↔ i < l.grammemeNames.toFinset.card := by
  rw [h.testBit_maskOf (List.Subset.refl _), ← h.size_eq, List.mem_map]
  constructor
  · rintro ⟨name, hname, rfl⟩
    exact h.stores.numbers.lt_size (h.identifier?_eq hname)
  · intro hi
    rw [h.stores.size_eq] at hi
    have hid := h.stores.identifier?_eq_some_iff.2 (List.getElem?_eq_getElem hi)
    have hname := h.mem_of_identifier? hid
    exact ⟨_, hname, Option.some.inj ((h.identifier?_eq hname).symm.trans hid)⟩

/-- Inclusion of sets is inclusion of names. -/
theorem includes_maskOf (h : l.GrammemesIn t) (hnames : names ⊆ l.grammemeNames)
    (hothers : others ⊆ l.grammemeNames) :
    (l.maskOf names).includes (l.maskOf others) ↔ others ⊆ names := by
  rw [maskOf_eq, maskOf_eq,
    Mask.includes_union_single (h.lt_of_mem_ranks hnames) (h.lt_of_mem_ranks hothers)]
  constructor
  · intro hsub name hname
    exact (h.mem_ranks hnames (hothers hname)).1 (hsub (List.mem_map_of_mem hname))
  · intro hsub
    exact List.map_subset _ hsub

/-- The order and the repetitions of names do not matter. -/
theorem maskOf_congr (h : l.GrammemesIn t) (hothers : others ⊆ l.grammemeNames)
    (hmem : ∀ name, name ∈ names ↔ name ∈ others) : l.maskOf names = l.maskOf others := by
  have hnames : names ⊆ l.grammemeNames := fun name hname => hothers ((hmem name).1 hname)
  rw [maskOf_eq, maskOf_eq]
  apply Mask.union_single_congr (h.lt_of_mem_ranks hnames) (h.lt_of_mem_ranks hothers)
  intro id
  simp only [List.mem_map, hmem]

theorem maskOf_eq_zero (h : l.GrammemesIn t) (hnames : names ⊆ l.grammemeNames) :
    l.maskOf names = 0 ↔ names = [] := by
  rw [maskOf_eq, Mask.union_single_eq_zero (h.lt_of_mem_ranks hnames), List.map_eq_nil_iff]

/-- Every grammeme of the lexicon has a bit. -/
theorem bit_eq_ok (h : l.GrammemesIn t) (hname : name ∈ l.grammemeNames) :
    t.bit name = .ok (.single (l.grammemeRank name)) := by
  have hrequire : StringTable.require t name = .ok (l.grammemeRank name) :=
    StringTable.require_eq_ok.2 (h.identifier?_eq hname)
  have hbit : Mask.ofIdentifier? (l.grammemeRank name) = some (.single (l.grammemeRank name)) :=
    if_pos (h.grammemeRank_lt hname)
  rw [SortedTable.bit, hrequire, liftM_ok, Except.ok_bind, hbit]
  rfl

/-- Names of grammemes of the lexicon have a set. -/
theorem mask_eq_ok (h : l.GrammemesIn t) (hnames : names ⊆ l.grammemeNames) :
    t.mask names = .ok (l.maskOf names) := by
  rw [SortedTable.mask, mapM_eq_ok_map fun name hname => h.bit_eq_ok (hnames hname), Except.map_ok]
  rfl

/-- Only names of grammemes of the lexicon have a bit. -/
theorem mem_of_bit (h : l.GrammemesIn t) {bit : Mask} (hbit : t.bit name = .ok bit) :
    name ∈ l.grammemeNames := by
  obtain ⟨id, hid, -⟩ := Except.bind_eq_ok.1 hbit
  exact h.mem_of_identifier? (StringTable.require_eq_ok.1 (liftM_eq_ok.1 hid))

/-- Sets that were resolved in the table. -/
theorem mask_eq (h : l.GrammemesIn t) {mask : Mask} (hmask : t.mask names = .ok mask) :
    mask = l.maskOf names := by
  -- names that have a bit are those of grammemes of the lexicon
  have hnames : names ⊆ l.grammemeNames := by
    obtain ⟨bits, hbits, -⟩ := Except.map_eq_ok.1 hmask
    intro name hname
    obtain ⟨i, hi, rfl⟩ := List.mem_iff_getElem.1 hname
    exact h.mem_of_bit (getElem_of_mapM_eq_ok hbits hi (length_of_mapM_eq_ok hbits ▸ hi))
  exact Except.ok.inj (hmask.symm.trans (h.mask_eq_ok hnames))

/-- The grammemes of patterns are in the table of all grammemes. -/
theorem ofPatterns_eq_ok (h : l.GrammemesIn t) :
    ResolvedPattern.ofPatterns t l.patterns = .ok (l.patterns.map l.resolved) := by
  apply mapM_eq_ok_map
  intro p hp
  have hpos : p.pos ⊆ l.grammemeNames := fun name hname =>
    List.mem_append_right _ (List.mem_flatMap.2 ⟨p, hp, List.mem_append_left _ hname⟩)
  have hforms : p.forms.mapM (fun f => return (f.suffix, ← t.mask f.grammemes)) =
      (.ok (p.forms.map fun f => (f.suffix, l.maskOf f.grammemes)) : Except Error _) := by
    apply mapM_eq_ok_map
    intro f hf
    rw [h.mask_eq_ok (formGrammemes_subset hp hf)]
    rfl
  rw [ResolvedPattern.ofPattern, h.mask_eq_ok hpos, Except.ok_bind, hforms]
  rfl

/-- Patterns that were resolved in the table. -/
theorem ofPatterns_eq (h : l.GrammemesIn t) {patterns : List Lexicon.Pattern}
    {ps : List ResolvedPattern} (hps : ResolvedPattern.ofPatterns t patterns = .ok ps) :
    ps = patterns.map l.resolved := by
  apply eq_map_of_mapM_eq_ok hps
  intro p _ r hr
  obtain ⟨pos, hpos, hr⟩ := Except.bind_eq_ok.1 hr
  obtain ⟨forms, hforms, hr⟩ := Except.bind_eq_ok.1 hr
  obtain rfl := Except.ok.inj hr
  have hresolved : forms = p.forms.map fun f => (f.suffix, l.maskOf f.grammemes) := by
    apply eq_map_of_mapM_eq_ok hforms
    intro f _ form hform
    obtain ⟨mask, hmask, hform⟩ := Except.bind_eq_ok.1 hform
    rw [← Except.ok.inj hform, h.mask_eq hmask]
  rw [resolved, hresolved, h.mask_eq hpos]

end GrammemesIn

end Lexicon

end Paradigm
