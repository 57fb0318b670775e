import Mathlib
import Paradigm.Inflector

/-!
# The rankings of sets of grammemes and of readings

Readings are compared by one key after the other: the grammemes of the reading that is meant, the
tables of the language, and the form, of which there may be none.  Each key is compared in an order
with ties, and so are the readings, whatever the tables are and whether or not they have forms.

## Main definitions

* `TotalPreorder`: a comparison that puts all values in an order with ties
* `noneLast`: a comparison of values of which some are missing

## Main results

* `Analyzer.compareBy_eq_iff`, `Inflector.compareReadings_eq_iff`: what is tied
* `Inflector.totalPreorder_compare`: both rankings are orders with ties
-/

namespace Paradigm

/-! ## Orders with ties -/

section Orders

variable {α : Type} {cmp : α → α → Ordering}

/-- A comparison that puts all values in an order with ties. -/
structure TotalPreorder (cmp : α → α → Ordering) : Prop where
  swap : ∀ a b, cmp a b = (cmp b a).swap
  trans : ∀ a b c, cmp a b ≠ .gt → cmp b c ≠ .gt → cmp a c ≠ .gt
  congr : ∀ a b, cmp a b = .eq → ∀ c, cmp a c = cmp b c ∧ cmp c a = cmp c b

theorem totalPreorder_of_transCmp (cmp : α → α → Ordering) [Std.TransCmp cmp] :
    TotalPreorder cmp where
  swap _ _ := Std.OrientedCmp.eq_swap
  trans a b c := by
    simp only [Ordering.ne_gt_iff_isLE]
    exact Std.TransCmp.isLE_trans
  congr _ _ hab _ := ⟨Std.TransCmp.congr_left hab, Std.TransCmp.congr_right hab⟩

/-- Values are compared, and a missing value comes after all others. -/
def noneLast (cmp : α → α → Ordering) : Option α → Option α → Ordering
  | none, none => .eq
  | none, some _ => .gt
  | some _, none => .lt
  | some a, some b => cmp a b

instance [Std.TransCmp cmp] : Std.TransCmp (noneLast cmp) where
  eq_swap := by
    rintro (_ | a) (_ | b)
    case some.some =>
      show cmp a b = (cmp b a).swap
      exact Std.OrientedCmp.eq_swap
    all_goals rfl
  isLE_trans := by
    rintro (_ | a) (_ | b) (_ | c) hab hbc
    case some.some.some =>
      change (cmp a b).isLE at hab
      show (cmp a c).isLE
      exact Std.TransCmp.isLE_trans hab hbc
    case none.some.none | none.some.some => cases hab
    case some.none.some => cases hbc
    case none.none.some => cases hbc
    all_goals rfl

end Orders

/-! ## Tables -/

namespace Analyzer

instance transCmp_compareBy (tables : List (List Mask)) : Std.TransCmp (compareBy tables) := by
  induction tables with
  | nil => exact { eq_swap := rfl, isLE_trans := fun _ _ => rfl }
  | cons table rest ih =>
    exact inferInstanceAs (Std.TransCmp (compareLex (compareOn (rankIn table)) (compareBy rest)))

instance transCmp_compareGrammemes (a : Analyzer) : Std.TransCmp a.compareGrammemes :=
  transCmp_compareBy a.priorities

/-- Readings are compared by their sets. -/
instance transCmp_compareGrammemes_on (a : Analyzer) :
    Std.TransCmp fun r s : Reading => a.compareGrammemes r.grammemes s.grammemes where
  eq_swap := Std.OrientedCmp.eq_swap
  isLE_trans := Std.TransCmp.isLE_trans

/-- Sets are tied if they have the same rank in each table. -/
theorem compareBy_eq_iff {tables : List (List Mask)} {x y : Mask} :
    compareBy tables x y = .eq ↔ ∀ table ∈ tables, rankIn table x = rankIn table y := by
  induction tables with
  | nil => simp [compareBy]
  | cons table rest ih =>
    rw [compareBy, Ordering.then_eq_eq, ih, compare_eq_iff_eq, List.forall_mem_cons]

end Analyzer

/-! ## Readings -/

/-- The number of grammemes of a reading and of forms of its pattern, if it has a form. -/
def Reading.sizes? (r : Reading) : Option (Nat × Nat) :=
  r.inflection.map fun i => (r.grammemes.count, i.pattern.record.inflectionCount)

namespace Inflector

/-- Compares sizes of readings: few grammemes come first, and then many forms. -/
def compareSizes (m n : Nat × Nat) : Ordering := (compare m.1 n.1).then (compare n.2 m.2)

instance : Std.TransCmp compareSizes :=
  inferInstanceAs (Std.TransCmp (compareLex (compareOn Prod.fst)
    (fun m n : Nat × Nat => compareOn Prod.snd n m)))

theorem compareForms_eq (r s : Reading) :
    compareForms r s = noneLast compareSizes r.sizes? s.sizes? := by
  unfold compareForms Reading.sizes?
  cases r.inflection <;> cases s.inflection <;> rfl

instance : Std.TransCmp compareForms where
  eq_swap := by
    intro r s
    rw [compareForms_eq, compareForms_eq]
    exact Std.OrientedCmp.eq_swap
  isLE_trans := by
    intro r s t
    rw [compareForms_eq, compareForms_eq, compareForms_eq]
    exact Std.TransCmp.isLE_trans

instance transCmp_compareReadings (a : Analyzer) (disambiguation : List Mask) :
    Std.TransCmp (compareReadings a disambiguation) := by
  -- the three keys, the first of which prefers higher scores
  let score (r : Reading) : Int64 := r.grammemes.priorityScore disambiguation
  exact inferInstanceAs (Std.TransCmp (compareLex (fun r s => compareOn score s r)
    (compareLex (fun r s => a.compareGrammemes r.grammemes s.grammemes) compareForms)))

theorem compareSizes_eq_iff {m n : Nat × Nat} : compareSizes m n = .eq ↔ m = n := by
  rw [compareSizes, Ordering.then_eq_eq, compare_eq_iff_eq, compare_eq_iff_eq, Prod.ext_iff,
    eq_comm (a := n.2)]

theorem compareForms_eq_iff {r s : Reading} :
    compareForms r s = .eq ↔ r.sizes? = s.sizes? := by
  rw [compareForms_eq]
  cases r.sizes? <;> cases s.sizes? <;> simp [noneLast, compareSizes_eq_iff]

/-- Readings are tied if no key tells them apart. -/
theorem compareReadings_eq_iff {a : Analyzer} {disambiguation : List Mask} {r s : Reading} :
    compareReadings a disambiguation r s = .eq ↔
      r.grammemes.priorityScore disambiguation = s.grammemes.priorityScore disambiguation ∧
      (∀ table ∈ a.priorities,
        Analyzer.rankIn table r.grammemes = Analyzer.rankIn table s.grammemes) ∧
      r.sizes? = s.sizes? := by
  rw [compareReadings, Ordering.then_eq_eq, Ordering.then_eq_eq, compareForms_eq_iff,
    Analyzer.compareGrammemes, Analyzer.compareBy_eq_iff, Std.LawfulEqOrd.compare_eq_iff_eq,
    eq_comm]

/-- **The rankings of sets of grammemes and of readings are orders with ties**, for all tables, for
all grammemes of the reading that is meant, and for readings with and without forms.  Those are tied
that have the same rank by each key. -/
theorem totalPreorder_compare (a : Analyzer) (disambiguation : List Mask) :
    TotalPreorder a.compareGrammemes ∧ TotalPreorder (compareReadings a disambiguation) ∧
    (∀ x y, a.compareGrammemes x y = .eq ↔
      ∀ table ∈ a.priorities, Analyzer.rankIn table x = Analyzer.rankIn table y) ∧
    ∀ r s, compareReadings a disambiguation r s = .eq ↔
      r.grammemes.priorityScore disambiguation = s.grammemes.priorityScore disambiguation ∧
      (∀ table ∈ a.priorities,
        Analyzer.rankIn table r.grammemes = Analyzer.rankIn table s.grammemes) ∧
      r.sizes? = s.sizes? := by
  refine ⟨totalPreorder_of_transCmp _, totalPreorder_of_transCmp _, ?_, ?_⟩
  · intro x y
    exact Analyzer.compareBy_eq_iff
  · intro r s
    exact compareReadings_eq_iff

end Inflector

end Paradigm
