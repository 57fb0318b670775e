import Mathlib

/-!
# The order of byte strings

Byte strings are compared byte by byte, and a string stands before all that it begins.  Where two
strings differ in a byte, this byte decides, whatever follows it in both of them.

## Main definitions

* `Before`: one string comes before another one, whatever follows them

## Main results

* `compare_eq_lt_of_lt`, `compare_append_left`: the comparison of lists follows their order
-/

namespace Paradigm

/-- All byte strings that begin with the first one come before all that begin with the second
one. -/
def Before (p q : List UInt8) : Prop := ∀ k l, p <+: k → q <+: l → k < l

theorem Before.mono {p q k l : List UInt8} (h : Before p q) (hk : p <+: k) (hl : q <+: l) :
    Before k l :=
  fun k' l' hk' hl' => h k' l' (hk.trans hk') (hl.trans hl')

theorem Before.lt {p q : List UInt8} (h : Before p q) (k l : List UInt8) : p ++ k < q ++ l :=
  h _ _ (List.prefix_append p k) (List.prefix_append q l)

theorem lt_of_prefix_of_ne {p q : List UInt8} (hpre : p <+: q) (hne : p ≠ q) : p < q := by
  obtain ⟨rest, rfl⟩ := hpre
  cases rest with
  | nil => simp at hne
  | cons x rest =>
    have h : p ++ [] < p ++ x :: rest := List.append_left_lt (List.nil_lt_cons x rest)
    rwa [List.append_nil] at h

/-- The first byte in which two strings differ decides. -/
theorem before_of_label_lt (p : List UInt8) {x y : UInt8} (hxy : x < y) :
    Before (p ++ [x]) (p ++ [y]) := by
  rintro _ _ ⟨k, rfl⟩ ⟨l, rfl⟩
  rw [List.append_assoc, List.append_assoc]
  apply List.append_left_lt
  exact List.cons_lt_cons_iff.2 (.inl hxy)

theorem before_cons_of_lt {x y : UInt8} (hxy : x < y) (p q : List UInt8) :
    Before (x :: p) (y :: q) :=
  (before_of_label_lt [] hxy).mono (List.prefix_append [x] p) (List.prefix_append [y] q)

theorem Before.cons {p q : List UInt8} (h : Before p q) (x : UInt8) :
    Before (x :: p) (x :: q) := by
  rintro _ _ ⟨k, rfl⟩ ⟨l, rfl⟩
  exact List.cons_lt_cons_iff.2 (.inr ⟨rfl, h.lt k l⟩)

/-- A byte decides, or those after it do. -/
theorem before_cons_ofNat {m n : Nat} {p q : List UInt8} (hn : n < 256)
    (h : m < n ∨ m = n ∧ Before p q) : Before (UInt8.ofNat m :: p) (UInt8.ofNat n :: q) := by
  rcases h with hlt | ⟨rfl, hrest⟩
  · apply before_cons_of_lt
    rw [UInt8.lt_iff_toNat_lt, UInt8.toNat_ofNat_of_lt' (hlt.trans hn),
      UInt8.toNat_ofNat_of_lt' hn]
    exact hlt
  · exact hrest.cons _

section Compare

variable {α : Type} [Ord α]

theorem compare_cons (x y : α) (p q : List α) :
    compare (x :: p) (y :: q) = (compare x y).then (compare p q) :=
  List.compareLex_cons_cons

theorem compare_append_left [Std.ReflOrd α] (l p q : List α) :
    compare (l ++ p) (l ++ q) = compare p q := by
  induction l with
  | nil => rfl
  | cons x l ih =>
    rw [List.cons_append, List.cons_append, compare_cons, Std.ReflOrd.compare_self,
      Ordering.eq_then, ih]

variable [LT α] [LE α] [Std.LawfulOrderOrd α] [Std.LawfulOrderLT α]

/-- The comparison of lists follows their order. -/
theorem compare_eq_lt_of_lt {p q : List α} (h : p < q) : compare p q = .lt := by
  induction p generalizing q with
  | nil =>
    cases q with
    | nil => cases h
    | cons y q => rfl
  | cons x p ih =>
    cases q with
    | nil => cases h
    | cons y q =>
      rw [compare_cons]
      rcases List.cons_lt_cons_iff.1 h with hlt | ⟨rfl, hlt⟩
      · rw [Std.compare_eq_lt.2 hlt, Ordering.lt_then]
      · rw [Std.ReflOrd.compare_self, Ordering.eq_then, ih hlt]

theorem compare_eq_gt_of_lt {p q : List α} (h : q < p) : compare p q = .gt :=
  Std.OrientedCmp.gt_of_lt (compare_eq_lt_of_lt h)

end Compare

end Paradigm
