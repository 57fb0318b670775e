import Mathlib
import Paradigm.Proofs.Storage.BitVector

/-!
# Unary degree sequences

A sequence of numbers is written as that many set bits for each of them, each run closed by a clear
bit.  Clear bits number the runs, and set bits number the units in all runs together, so that ranks
and selections lead from a run to its units and back.

## Main definitions

* `unary`: the bits of a sequence of numbers

## Main results

* `select0_unary`, `rank1_unary`: where a run ends, and the units before it
* `select1_unary`, `rank0_unary`: where a unit stands, and the runs before it
-/

namespace Paradigm

/-- As many set bits as each of the numbers says, and a clear bit after each run. -/
def unary (ds : List Nat) : List Bool :=
  ds.flatMap fun d => List.replicate d true ++ [false]

@[simp] theorem unary_nil : unary [] = [] := rfl

@[simp] theorem unary_cons (d : Nat) (ds : List Nat) :
    unary (d :: ds) = List.replicate d true ++ false :: unary ds := by
  simp [unary]

theorem unary_append (ds es : List Nat) : unary (ds ++ es) = unary ds ++ unary es := by
  simp [unary]

@[simp] theorem length_unary (ds : List Nat) : (unary ds).length = ds.sum + ds.length := by
  induction ds with
  | nil => rfl
  | cons d ds ih => simp [ih]; omega

@[simp] theorem count_true_unary (ds : List Nat) : (unary ds).count true = ds.sum := by
  induction ds with
  | nil => rfl
  | cons d ds ih => simp [ih]

@[simp] theorem count_false_unary (ds : List Nat) : (unary ds).count false = ds.length := by
  induction ds with
  | nil => rfl
  | cons d ds ih => simp [ih, List.count_replicate]

/-- The bits before the end of a run, and from there on. -/
theorem unary_split (ds : List Nat) {k : Nat} (hk : k < ds.length) :
    unary ds = unary (ds.take k) ++ (List.replicate ds[k] true ++ false ::
      unary (ds.drop (k + 1))) := by
  conv_lhs => rw [← List.take_append_drop k ds, List.drop_eq_getElem_cons hk]
  rw [unary_append, unary_cons]

theorem sum_take_succ_eq (ds : List Nat) {k : Nat} (hk : k < ds.length) :
    (ds.take (k + 1)).sum = (ds.take k).sum + ds[k] := by
  rw [List.take_succ_eq_append_getElem hk, List.sum_append, List.sum_singleton]

/-- The bits before a place in a run are those of the runs before and some set bits. -/
theorem take_unary (ds : List Nat) {k j : Nat} (hk : k < ds.length) (hj : j ≤ ds[k]) :
    (unary ds).take ((ds.take k).sum + k + j) =
      unary (ds.take k) ++ List.replicate j true := by
  have hlen : (unary (ds.take k)).length = (ds.take k).sum + k := by
    rw [length_unary, List.length_take, Nat.min_eq_left hk.le]
  rw [unary_split ds hk, ← hlen, List.take_length_add_append, List.take_append_of_le_length
    (by simpa using hj), List.take_replicate, Nat.min_eq_left hj]

theorem getElem?_unary (ds : List Nat) {k j : Nat} (hk : k < ds.length) (hj : j ≤ ds[k]) :
    (unary ds)[(ds.take k).sum + k + j]? = some (decide (j < ds[k])) := by
  have hlen : (unary (ds.take k)).length = (ds.take k).sum + k := by
    rw [length_unary, List.length_take, Nat.min_eq_left hk.le]
  rw [unary_split ds hk, ← hlen, List.getElem?_append_right (by omega), Nat.add_sub_cancel_left]
  -- the place is in the run, or at the clear bit after it
  rcases Nat.lt_or_eq_of_le hj with hlt | heq
  · rw [List.getElem?_append_left (by simpa using hlt), List.getElem?_replicate, if_pos hlt,
      decide_eq_true hlt]
  · rw [List.getElem?_append_right (by simp [heq]), List.length_replicate, heq, Nat.sub_self]
    simp

namespace BitVector

variable {v : BitVector} {ds : List Nat} {k j : Nat}

/-- The end of a run. -/
theorem select0_unary (hv : v.toList = unary ds) (hk : k < ds.length) :
    v.select0 k = some ((ds.take (k + 1)).sum + k) := by
  have hpos : (ds.take (k + 1)).sum + k = (ds.take k).sum + k + ds[k] := by
    rw [sum_take_succ_eq ds hk]
    omega
  rw [select0_eq_some_iff, hv, hpos, getElem?_unary ds hk le_rfl, take_unary ds hk le_rfl]
  simp [List.count_replicate, hk.le]

/-- The units before the beginning of a run. -/
theorem rank1_unary (hv : v.toList = unary ds) (hk : k ≤ ds.length) :
    v.rank1 ((ds.take k).sum + k) = (ds.take k).sum := by
  rw [rank1_eq, hv]
  -- the beginning of a run, or the end of all of them
  rcases Nat.lt_or_eq_of_le hk with hlt | rfl
  · have := take_unary ds hlt (Nat.zero_le _)
    rw [Nat.add_zero] at this
    rw [this]
    simp
  · rw [List.take_length, ← length_unary, List.take_length, count_true_unary]

/-- The place of a unit. -/
theorem select1_unary (hv : v.toList = unary ds) (hk : k < ds.length) (hj : j < ds[k]) :
    v.select1 ((ds.take k).sum + j) = some ((ds.take k).sum + k + j) := by
  rw [select1_eq_some_iff, hv, getElem?_unary ds hk hj.le, take_unary ds hk hj.le]
  simp [hj]

/-- The runs before a unit. -/
theorem rank0_unary (hv : v.toList = unary ds) (hk : k < ds.length) (hj : j < ds[k]) :
    v.rank0 ((ds.take k).sum + k + j) = k := by
  rw [rank0_eq, hv, take_unary ds hk hj.le]
  simp [List.count_replicate, hk.le]

end BitVector

end Paradigm
