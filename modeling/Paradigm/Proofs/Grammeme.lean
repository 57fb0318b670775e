import Mathlib
import Paradigm.Grammeme
import Paradigm.Proofs.Sorting
import Paradigm.Proofs.Storage.Bits

/-!
# The members of sets of grammemes

A set that was put together from identifiers has the bits of these identifiers and no others.
Inclusion of such sets is inclusion of their identifiers.

## Main definitions

* `Mask.toFinset`: the members of a set

## Main results

* `Mask.includes_iff`: inclusion is told bit by bit
* `Mask.mem_members`, `Mask.members_single`: the members of a set
* `Mask.count_eq_card`: the number of members
* `Mask.singles_eq_map_members`: the sets that are split off a set belong to its members
* `Mask.testBit_union_single`: the bits of a set of identifiers
* `Mask.includes_union_single`: inclusion of sets of identifiers
-/

namespace Paradigm

namespace Mask

/-! ## Bits -/

theorem eq_of_testBit {a b : Mask} (h : ∀ i, a.toNat.testBit i = b.toNat.testBit i) : a = b :=
  UInt64.toNat_inj.1 (Nat.eq_of_testBit_eq h)

theorem includes_iff {mask subset : Mask} :
    mask.includes subset ↔ ∀ i, subset.toNat.testBit i → mask.toNat.testBit i := by
  rw [includes, beq_iff_eq]
  constructor
  · intro h i hi
    rw [← h, UInt64.toNat_and, Nat.testBit_and, Bool.and_eq_true] at hi
    exact hi.1
  · intro h
    apply eq_of_testBit
    intro i
    rw [UInt64.toNat_and, Nat.testBit_and, Bool.eq_iff_iff, Bool.and_eq_true]
    exact and_iff_right_of_imp (h i)

theorem testBit_single {id : Nat} (h : id < capacity) (i : Nat) :
    (single id).toNat.testBit i = decide (i = id) := by
  unfold capacity at h
  have hsize : id < UInt64.size := by
    simp only [UInt64.size]
    omega
  -- the shift is by the identifier itself, since words take shifts modulo 64
  have hid : (UInt64.ofNat id).toNat = id := UInt64.toNat_ofNat_of_lt' hsize
  have hpow : 2 ^ id < 2 ^ 64 := Nat.pow_lt_pow_right (by decide) h
  rw [single, UInt64.toNat_shiftLeft, hid, Nat.mod_eq_of_lt h, Nat.shiftLeft_eq, UInt64.toNat_one,
    Nat.one_mul, Nat.mod_eq_of_lt hpow, Nat.testBit_two_pow]
  exact decide_eq_decide.2 eq_comm

theorem testBit_foldl_or (masks : List Mask) (mask : Mask) (i : Nat) :
    (masks.foldl (· ||| ·) mask).toNat.testBit i ↔
      mask.toNat.testBit i ∨ ∃ m ∈ masks, m.toNat.testBit i := by
  induction masks generalizing mask with
  | nil => simp
  | cons m masks ih =>
    rw [List.foldl_cons, ih, UInt64.toNat_or, Nat.testBit_or, Bool.or_eq_true, or_assoc,
      List.exists_mem_cons_iff]

theorem testBit_union (masks : List Mask) (i : Nat) :
    (union masks).toNat.testBit i ↔ ∃ m ∈ masks, m.toNat.testBit i := by
  rw [union, testBit_foldl_or]
  simp

/-! ## Members -/

theorem mem_members {mask : Mask} {i : Nat} : i ∈ mask.members ↔ mask.toNat.testBit i := by
  rw [members, List.mem_filter, List.mem_range]
  refine and_iff_right_of_imp fun hi => Nat.lt_of_not_le fun hle => ?_
  have hlt : mask.toNat < 2 ^ i := mask.toNat_lt.trans_le (Nat.pow_le_pow_right (by decide) hle)
  rw [Nat.testBit_lt_two_pow hlt] at hi
  cases hi

theorem lt_of_mem_members {mask : Mask} {i : Nat} (h : i ∈ mask.members) : i < capacity :=
  List.mem_range.1 (List.mem_filter.1 h).1

theorem pairwise_members (mask : Mask) : mask.members.Pairwise (· < ·) :=
  List.pairwise_lt_range.filter _

theorem members_single {id : Nat} (h : id < capacity) : (single id).members = [id] := by
  apply eq_of_pairwise_of_mem_iff (fun _ _ => lt_asymm) (pairwise_members _)
    (List.pairwise_singleton _ _)
  intro i
  rw [mem_members, testBit_single h, decide_eq_true_iff, List.mem_singleton]

theorem identifier?_single {id : Nat} (h : id < capacity) : (single id).identifier? = some id := by
  rw [identifier?, members_single h]

/-- The identifiers in a set, in no order. -/
def toFinset (mask : Mask) : Finset ℕ :=
  (Finset.range capacity).filter fun i => mask.toNat.testBit i

theorem mem_toFinset {mask : Mask} {i : Nat} : i ∈ mask.toFinset ↔ mask.toNat.testBit i := by
  rw [toFinset, Finset.mem_filter, Finset.mem_range, ← mem_members]
  exact and_iff_right_of_imp lt_of_mem_members

theorem toFinset_and (a b : Mask) : (a &&& b).toFinset = a.toFinset ∩ b.toFinset := by
  ext i
  rw [Finset.mem_inter, mem_toFinset, mem_toFinset, mem_toFinset, UInt64.toNat_and,
    Nat.testBit_and, Bool.and_eq_true]

/-- The number of grammemes in a set is that of its members. -/
theorem count_eq_card (mask : Mask) : mask.count = mask.toFinset.card := by
  have hmembers : mask.members.toFinset = mask.toFinset := by
    ext i
    rw [List.mem_toFinset, mem_members, mem_toFinset]
  rw [← hmembers, List.toFinset_card_of_nodup, count]
  exact Pairwise.nodup_of_irrefl Nat.lt_irrefl mask.pairwise_members

/-! ## Lowest members -/

theorem testBit_neg (mask : Mask) (i : Nat) : (-mask).toNat.testBit i =
    (mask.toNat.testBit i ^^ (decide (i < capacity) &&
      decide (∃ j < i, mask.toNat.testBit j = true))) := by
  rw [← UInt64.toNat_toBitVec, BitVec.testBit_toNat, UInt64.toBitVec_neg, BitVec.getLsbD_neg]
  simp only [← UInt64.toNat_toBitVec, BitVec.testBit_toNat]
  rfl

theorem testBit_lowest {mask : Mask} {i : Nat} : mask.lowest.toNat.testBit i ↔
    mask.toNat.testBit i ∧ ∀ j < i, ¬ mask.toNat.testBit j := by
  rw [lowest, UInt64.toNat_and, Nat.testBit_and, testBit_neg]
  by_cases hi : mask.toNat.testBit i
  · have hlt := lt_of_mem_members (mem_members.2 hi)
    simp [hi, hlt]
  · simp [hi]

theorem testBit_withoutLowest {mask : Mask} {i : Nat} : mask.withoutLowest.toNat.testBit i ↔
    mask.toNat.testBit i ∧ ∃ j < i, mask.toNat.testBit j := by
  -- the bits below the lowest are set in the number before, and its own is not
  have hnot : mask.withoutLowest = mask &&& ~~~(-mask) := by
    apply UInt64.toBitVec_inj.1
    rw [withoutLowest, UInt64.toBitVec_and, UInt64.toBitVec_and, UInt64.toBitVec_not,
      UInt64.toBitVec_neg, BitVec.not_neg, UInt64.toBitVec_sub]
    rfl
  rw [hnot, UInt64.toNat_and, Nat.testBit_and]
  by_cases hi : mask.toNat.testBit i
  · have hlt := lt_of_mem_members (mem_members.2 hi)
    rw [testBit_not hlt, testBit_neg]
    simp [hi, hlt]
  · simp [hi]

/-- A set that is not empty is its lowest member with the others. -/
theorem members_eq_cons {mask : Mask} (h : mask ≠ 0) :
    ∃ i, mask.lowest = single i ∧ mask.members = i :: mask.withoutLowest.members := by
  obtain ⟨i, rest, hmembers⟩ : ∃ i rest, mask.members = i :: rest := by
    apply List.exists_cons_of_ne_nil
    intro hnil
    apply h
    apply eq_of_testBit
    intro i
    rw [Bool.eq_iff_iff, ← mem_members, hnil]
    simp
  have hsorted := mask.pairwise_members
  rw [hmembers, List.pairwise_cons] at hsorted
  obtain ⟨hfirst, hrest⟩ := hsorted
  have hbit : ∀ j, mask.toNat.testBit j ↔ j = i ∨ j ∈ rest := by
    intro j
    rw [← mem_members, hmembers, List.mem_cons]
  have hi : i < capacity := lt_of_mem_members (mem_members.2 ((hbit i).2 (.inl rfl)))
  refine ⟨i, ?_, ?_⟩
  · apply eq_of_testBit
    intro j
    rw [Bool.eq_iff_iff, testBit_lowest, testBit_single hi, decide_eq_true_iff]
    constructor
    · rintro ⟨hj, hlowest⟩
      rcases (hbit j).1 hj with heq | hj
      · exact heq
      · exact absurd ((hbit i).2 (.inl rfl)) (hlowest i (hfirst j hj))
    · rintro rfl
      refine ⟨(hbit j).2 (.inl rfl), fun k hlt hk => ?_⟩
      rcases (hbit k).1 hk with rfl | hk
      · exact lt_irrefl _ hlt
      · exact lt_asymm hlt (hfirst k hk)
  · rw [hmembers]
    congr 1
    apply eq_of_pairwise_of_mem_iff (fun _ _ => lt_asymm) hrest (pairwise_members _)
    intro j
    rw [mem_members, testBit_withoutLowest]
    constructor
    · exact fun hj => ⟨(hbit j).2 (.inr hj), i, hfirst j hj, (hbit i).2 (.inl rfl)⟩
    · rintro ⟨hj, k, hlt, hk⟩
      rcases (hbit j).1 hj with rfl | hj
      · rcases (hbit k).1 hk with rfl | hk
        · exact absurd hlt (lt_irrefl _)
        · exact absurd hlt (lt_asymm (hfirst k hk))
      · exact hj

/-- The sets that are split off a set one after the other are those of its members. -/
theorem singles_eq_map_members (mask : Mask) : mask.singles = mask.members.map single := by
  induction mask using singles.induct with
  | case1 =>
    rw [singles, if_pos rfl]
    rfl
  | case2 mask h ih =>
    obtain ⟨i, hlowest, hmembers⟩ := members_eq_cons h
    rw [singles, if_neg h, ih, hlowest, hmembers, List.map_cons]

/-! ## Sets of identifiers -/

section Identifiers

variable {ids others : List Nat}

/-- The bits of a set of identifiers. -/
theorem testBit_union_single (h : ∀ id ∈ ids, id < capacity) (i : Nat) :
    (union (ids.map single)).toNat.testBit i ↔ i ∈ ids := by
  rw [testBit_union]
  constructor
  · rintro ⟨m, hm, hi⟩
    obtain ⟨id, hid, rfl⟩ := List.mem_map.1 hm
    rw [testBit_single (h id hid), decide_eq_true_iff] at hi
    exact hi ▸ hid
  · intro hi
    refine ⟨single i, List.mem_map_of_mem hi, ?_⟩
    rw [testBit_single (h i hi), decide_eq_true_iff]

/-- Inclusion of sets is inclusion of their identifiers. -/
theorem includes_union_single (hids : ∀ id ∈ ids, id < capacity)
    (hothers : ∀ id ∈ others, id < capacity) :
    (union (ids.map single)).includes (union (others.map single)) ↔ others ⊆ ids := by
  simp only [includes_iff, testBit_union_single hids, testBit_union_single hothers]
  rfl

/-- Sets of the same identifiers are equal. -/
theorem union_single_congr (hids : ∀ id ∈ ids, id < capacity)
    (hothers : ∀ id ∈ others, id < capacity) (h : ∀ id, id ∈ ids ↔ id ∈ others) :
    union (ids.map single) = union (others.map single) := by
  apply eq_of_testBit
  intro i
  rw [Bool.eq_iff_iff, testBit_union_single hids, testBit_union_single hothers]
  exact h i

/-- A set is empty if it has no identifiers. -/
theorem union_single_eq_zero (hids : ∀ id ∈ ids, id < capacity) :
    union (ids.map single) = 0 ↔ ids = [] := by
  constructor
  · intro h
    apply List.eq_nil_iff_forall_not_mem.2
    intro id hid
    have hbit := (testBit_union_single hids id).2 hid
    rw [h] at hbit
    simp at hbit
  · rintro rfl
    rfl

end Identifiers

end Mask

end Paradigm
