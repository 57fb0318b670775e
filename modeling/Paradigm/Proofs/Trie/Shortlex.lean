import Mathlib
import Paradigm.Proofs.Sorting

/-!
# The level order as an order

Paths of one level are compared by their parents first and by their last bytes among siblings, so
that the level order of the nodes of a tree is the order in which a walk by levels meets them.

## Main definitions

* `Precedes`: a path comes before another one
* `distinctPaths`: a list of paths without repetitions, in order

## Main results

* `pairwise_distinctPaths`, `mem_distinctPaths`: the distinct paths of a list are its members, in
  order
* `precedes_append_singleton`: siblings and cousins
-/

namespace Paradigm

/-- The first path is shorter, or has the same length and smaller bytes. -/
def Precedes (p q : List UInt8) : Prop :=
  p.length < q.length ∨ p.length = q.length ∧ p < q

instance : DecidableRel Precedes := fun p q =>
  inferInstanceAs (Decidable (p.length < q.length ∨ p.length = q.length ∧ p < q))

namespace Precedes

variable {p q r : List UInt8}

theorem irrefl (p : List UInt8) : ¬ Precedes p p := by
  rintro (h | ⟨-, h⟩)
  · exact Nat.lt_irrefl _ h
  · exact List.lt_irrefl p h

theorem trans (hpq : Precedes p q) (hqr : Precedes q r) : Precedes p r := by
  rcases hpq with hpq | ⟨hlen, hpq⟩
  · rcases hqr with hqr | ⟨hlen', -⟩
    · exact .inl (by omega)
    · exact .inl (by omega)
  · rcases hqr with hqr | ⟨hlen', hqr⟩
    · exact .inl (by omega)
    · exact .inr ⟨hlen.trans hlen', List.lt_trans hpq hqr⟩

theorem asymm (p q : List UInt8) (hpq : Precedes p q) : ¬ Precedes q p :=
  fun hqp => irrefl p (hpq.trans hqp)

theorem length_le (h : Precedes p q) : p.length ≤ q.length := by
  rcases h with h | ⟨h, -⟩ <;> omega

theorem append_right (h : Precedes p q) (rest : List UInt8) : Precedes p (q ++ rest) := by
  cases rest with
  | nil => simpa using h
  | cons x rest =>
    have := h.length_le
    exact .inl (by simp; omega)

/-- Of two paths one comes first. -/
theorem trichotomy (p q : List UInt8) : Precedes p q ∨ p = q ∨ Precedes q p := by
  rcases Nat.lt_trichotomy p.length q.length with h | h | h
  · exact .inl (.inl h)
  · rcases List.le_total p q with hle | hle
    · rcases List.le_iff_lt_or_eq.1 hle with hlt | heq
      · exact .inl (.inr ⟨h, hlt⟩)
      · exact .inr (.inl heq)
    · rcases List.le_iff_lt_or_eq.1 hle with hlt | heq
      · exact .inr (.inr (.inr ⟨h.symm, hlt⟩))
      · exact .inr (.inl heq.symm)
  · exact .inr (.inr (.inl h))

end Precedes

/-! ## Distinct paths -/

/-- The distinct paths of a list, in order. -/
def distinctPaths (paths : List (List UInt8)) : List (List UInt8) :=
  (paths.mergeSort fun p q => p = q ∨ Precedes p q).eraseReps

theorem mem_distinctPaths {p : List UInt8} {paths : List (List UInt8)} :
    p ∈ distinctPaths paths ↔ p ∈ paths :=
  mem_eraseReps_mergeSort

/-- The distinct paths of a list are in order. -/
theorem pairwise_distinctPaths (paths : List (List UInt8)) :
    (distinctPaths paths).Pairwise Precedes := by
  have h : (distinctPaths paths).Pairwise fun p q => decide (p = q ∨ Precedes p q) ∧ p ≠ q :=
    pairwise_eraseReps_mergeSort ?_ ?_ ?_ paths
  · refine h.imp fun {p q} hpq => ?_
    exact (of_decide_eq_true hpq.1).resolve_left hpq.2
  -- the relation of the sort is transitive ...
  · intro p q r hpq hqr
    simp only [decide_eq_true_eq] at *
    rcases hpq with rfl | hpq
    · exact hqr
    · rcases hqr with rfl | hqr
      · exact .inr hpq
      · exact .inr (hpq.trans hqr)
  -- ... total ...
  · intro p q
    simp only [Bool.or_eq_true, decide_eq_true_eq]
    rcases Precedes.trichotomy p q with h | h | h
    · exact .inl (.inr h)
    · exact .inl (.inl h)
    · exact .inr (.inr h)
  -- ... and antisymmetric
  · intro p q hpq hqp
    simp only [decide_eq_true_eq] at *
    rcases hpq with rfl | hpq
    · rfl
    · rcases hqp with rfl | hqp
      · rfl
      · exact absurd hqp (Precedes.asymm p q hpq)

/-- Lists in order are determined by their members. -/
theorem eq_of_pairwise_precedes {ps qs : List (List UInt8)} (hps : ps.Pairwise Precedes)
    (hqs : qs.Pairwise Precedes) (hmem : ∀ p, p ∈ ps ↔ p ∈ qs) : ps = qs :=
  eq_of_pairwise_of_mem_iff Precedes.asymm hps hqs hmem

/-! ## Siblings -/

theorem append_singleton_lt {p q : List UInt8} (h : p.length = q.length) (x y : UInt8) :
    p ++ [x] < q ++ [y] ↔ p < q ∨ p = q ∧ x < y := by
  -- along both paths, which end together
  induction p generalizing q with
  | nil =>
    obtain rfl : q = [] := List.length_eq_zero_iff.1 h.symm
    simp [List.cons_lt_cons_iff]
  | cons a p ih =>
    cases q with
    | nil => simp at h
    | cons b q =>
      have hlen : p.length = q.length := by simpa using h
      simp only [List.cons_append, List.cons_lt_cons_iff, ih hlen, List.cons.injEq]
      tauto

/-- Children of one node are ordered by their labels, and others by their parents. -/
theorem precedes_append_singleton {p q : List UInt8} {x y : UInt8} :
    Precedes (p ++ [x]) (q ++ [y]) ↔ Precedes p q ∨ p = q ∧ x < y := by
  rw [Precedes, Precedes, List.length_append, List.length_append]
  constructor
  · rintro (h | ⟨hlen, hlt⟩)
    · exact .inl (.inl (by simpa using h))
    · have hlen : p.length = q.length := by simpa using hlen
      rcases (append_singleton_lt hlen x y).1 hlt with hlt | heq
      · exact .inl (.inr ⟨hlen, hlt⟩)
      · exact .inr heq
  · rintro ((h | ⟨hlen, hlt⟩) | ⟨rfl, hxy⟩)
    · exact .inl (by simpa using h)
    · exact .inr ⟨by simpa using hlen, (append_singleton_lt hlen x y).2 (.inl hlt)⟩
    · exact .inr ⟨rfl, (append_singleton_lt rfl x y).2 (.inr ⟨rfl, hxy⟩)⟩

/-- Parents come in the order of their children. -/
theorem Precedes.dropLast {p q : List UInt8} (hp : p ≠ []) (hq : q ≠ []) (h : Precedes p q) :
    p.dropLast = q.dropLast ∨ Precedes p.dropLast q.dropLast := by
  rw [← List.dropLast_append_getLast hp, ← List.dropLast_append_getLast hq,
    precedes_append_singleton] at h
  rcases h with h | ⟨h, -⟩
  · exact .inr h
  · exact .inl h

end Paradigm
