import Mathlib
import Paradigm.Grammeme

/-!
# The score of a set by a list of masks

The score of a set has a binary digit for each mask of a list.  Numbers with the same number of
digits are compared by the highest digits that differ, so that a mask counts more than all masks
behind it together, as long as all digits have room in a word.  Where they have not, the last 64
count, and the first of these turns the order round.

## Main definitions

* `binary`: the number with given binary digits
* `Mask.telling?`: the first mask that tells two sets apart

## Main results

* `binary_lt_binary_iff`: numbers are compared by their digits
* `Mask.toBitVec_priorityScore`: the score is the number of its digits in a word of 64 bits
* `Mask.toInt_priorityScore`, `Mask.priorityScore_lt_iff`: it is compared by its digits if there are
  at most 63
* `Mask.priorityScore_order`: the mask that decides between two scores, for lists of any length
-/

namespace Paradigm

/-! ## Binary digits -/

/-- The number with given binary digits, the highest of them first. -/
def binary (bs : List Bool) : Nat := bs.foldl (fun n b => 2 * n + b.toNat) 0

theorem binary_concat (bs : List Bool) (b : Bool) :
    binary (bs ++ [b]) = 2 * binary bs + b.toNat := List.foldl_concat ..

theorem binary_cons (b : Bool) (bs : List Bool) :
    binary (b :: bs) = b.toNat * 2 ^ bs.length + binary bs := by
  induction bs using List.reverseRecOn with
  | nil => simp [binary]
  | append_singleton bs c ih =>
    rw [← List.cons_append, binary_concat, ih, binary_concat, List.length_append,
      List.length_singleton, Nat.pow_succ]
    ring

theorem binary_append (xs ys : List Bool) :
    binary (xs ++ ys) = binary xs * 2 ^ ys.length + binary ys := by
  induction ys using List.reverseRecOn with
  | nil => simp [binary]
  | append_singleton ys y ih =>
    rw [← List.append_assoc, binary_concat, ih, binary_concat, List.length_append,
      List.length_singleton, Nat.pow_succ]
    ring

theorem binary_lt (bs : List Bool) : binary bs < 2 ^ bs.length := by
  induction bs using List.reverseRecOn with
  | nil => decide
  | append_singleton bs b ih =>
    have hb := b.toNat_lt
    rw [binary_concat, List.length_append, List.length_singleton, Nat.pow_succ]
    omega

/-- Of two numbers with equally many digits the one is lower whose digit is lower where they first
differ. -/
theorem binary_lt_binary_iff {xs ys : List Bool} (h : xs.length = ys.length) :
    binary xs < binary ys ↔ xs < ys := by
  induction xs generalizing ys with
  | nil =>
    obtain rfl := List.length_eq_zero_iff.1 h.symm
    simp
  | cons x xs ih =>
    obtain ⟨y, ys, rfl⟩ := List.exists_cons_of_length_eq_add_one h.symm
    have hlength : xs.length = ys.length := Nat.succ.inj h
    rw [binary_cons, binary_cons, hlength, List.cons_lt_cons_iff, ← ih hlength]
    -- the first digit counts more than all others together
    have hxs := binary_lt xs
    have hys := binary_lt ys
    rw [hlength] at hxs
    have hlt : ¬ (true : Bool) < false := by decide
    cases x <;> cases y <;> simp [hlt] <;> omega

theorem binary_inj {xs ys : List Bool} (h : xs.length = ys.length) :
    binary xs = binary ys ↔ xs = ys := by
  refine ⟨fun heq => ?_, congrArg binary⟩
  apply le_antisymm
  · rw [← not_lt, ← binary_lt_binary_iff h.symm, heq]
    exact lt_irrefl _
  · rw [← not_lt, ← binary_lt_binary_iff h, heq]
    exact lt_irrefl _

namespace Mask

/-! ## The digits of a score -/

/-- A further digit moves the others up. -/
theorem ofNat_shiftLeft_or (n : Nat) (b : Bool) :
    (BitVec.ofNat 64 n <<< 1) ||| (if b then 1 else 0) = BitVec.ofNat 64 (2 * n + b.toNat) := by
  apply BitVec.eq_of_toNat_eq
  have hshift : (BitVec.ofNat 64 n <<< 1).toNat = 2 * (n % 2 ^ 63) := by
    simp only [BitVec.toNat_shiftLeft, BitVec.toNat_ofNat, Nat.shiftLeft_eq]
    omega
  rw [BitVec.toNat_or, hshift, BitVec.toNat_ofNat]
  cases b with
  | false =>
    simp
    omega
  | true =>
    have hor := Nat.two_pow_add_eq_or_of_lt (i := 1) (b := 1) (by decide) (n % 2 ^ 63)
    rw [Nat.pow_one] at hor
    rw [if_pos rfl, show (1 : BitVec 64).toNat = 1 from rfl, ← hor, Bool.toNat_true]
    omega

/-- The score is the number of its digits, as far as a word holds them. -/
theorem toBitVec_priorityScore (mask : Mask) (ordered : List Mask) :
    (mask.priorityScore ordered).toBitVec = BitVec.ofNat 64 (binary (ordered.map mask.meets)) := by
  induction ordered using List.reverseRecOn with
  | nil => rfl
  | append_singleton ordered m ih =>
    rw [priorityScore, List.foldl_concat, ← priorityScore, List.map_append, List.map_singleton,
      binary_concat, ← ofNat_shiftLeft_or, ← ih]
    cases mask.meets m <;> rfl

section Ordered

variable {ordered : List Mask}

/-- The score is the number of its digits if a word holds them beside the sign. -/
theorem toInt_priorityScore (h : ordered.length ≤ 63) (mask : Mask) :
    (mask.priorityScore ordered).toInt = binary (ordered.map mask.meets) := by
  have hlt : binary (ordered.map mask.meets) < 2 ^ 63 := by
    refine (binary_lt _).trans_le ?_
    rw [List.length_map]
    exact Nat.pow_le_pow_right (by decide) h
  rw [← Int64.toInt_toBitVec, toBitVec_priorityScore, BitVec.toInt_eq_toNat_of_lt,
    BitVec.toNat_ofNat, Nat.mod_eq_of_lt (by omega)]
  rw [BitVec.toNat_ofNat, Nat.mod_eq_of_lt (by omega)]
  omega

/-- **Of two sets the one has the lower score that does not meet the first mask that only one of
them meets.** -/
theorem priorityScore_lt_iff (h : ordered.length ≤ 63) {a b : Mask} :
    (a.priorityScore ordered).toInt < (b.priorityScore ordered).toInt ↔
      ordered.map a.meets < ordered.map b.meets := by
  rw [toInt_priorityScore h, toInt_priorityScore h, Int.ofNat_lt,
    binary_lt_binary_iff (by rw [List.length_map, List.length_map])]

theorem priorityScore_inj (h : ordered.length ≤ 63) {a b : Mask} :
    (a.priorityScore ordered).toInt = (b.priorityScore ordered).toInt ↔
      ordered.map a.meets = ordered.map b.meets := by
  rw [toInt_priorityScore h, toInt_priorityScore h, Int.ofNat_inj,
    binary_inj (by rw [List.length_map, List.length_map])]

end Ordered

/-! ## The mask that decides -/

/-- The first mask of a list that just one of two sets meets. -/
def telling? (a b : Mask) (ordered : List Mask) : Option Mask :=
  ordered.find? fun m => a.meets m != b.meets m

theorem telling?_cons (a b m : Mask) (ordered : List Mask) :
    telling? a b (m :: ordered) =
      if a.meets m = b.meets m then telling? a b ordered else some m := by
  rw [telling?, List.find?_cons]
  by_cases h : a.meets m = b.meets m
  · rw [if_pos h, h, bne_self_eq_false]
    rfl
  · rw [if_neg h, bne_iff_ne.2 h]

/-- The digits of two sets first differ at the mask that tells them apart. -/
theorem map_meets_lt_iff {a b : Mask} {ordered : List Mask} :
    ordered.map b.meets < ordered.map a.meets ↔
      ∃ m, telling? a b ordered = some m ∧ a.meets m := by
  induction ordered with
  | nil => simp [telling?]
  | cons m ordered ih =>
    rw [List.map_cons, List.map_cons, List.cons_lt_cons_iff, ih, telling?_cons]
    cases ha : a.meets m <;> cases hb : b.meets m <;> simp [ha]

theorem map_meets_inj {a b : Mask} {ordered : List Mask} :
    ordered.map a.meets = ordered.map b.meets ↔ telling? a b ordered = none := by
  simp [telling?, List.map_inj_left]

/-- Masks that have 64 others behind them do not count. -/
theorem priorityScore_append (mask : Mask) (dropped : List Mask) {kept : List Mask}
    (h : 64 ≤ kept.length) :
    mask.priorityScore (dropped ++ kept) = mask.priorityScore kept := by
  apply Int64.toBitVec_inj.1
  obtain ⟨n, hn⟩ := Nat.pow_dvd_pow 2 h
  rw [toBitVec_priorityScore, toBitVec_priorityScore, List.map_append, binary_append,
    List.length_map, hn]
  apply BitVec.eq_of_toNat_eq
  rw [BitVec.toNat_ofNat, BitVec.toNat_ofNat, Nat.mul_left_comm, Nat.mul_add_mod]

theorem toInt_priorityScore_bounds {ordered : List Mask} (h : ordered.length = 63) (mask : Mask) :
    0 ≤ (mask.priorityScore ordered).toInt ∧ (mask.priorityScore ordered).toInt < 2 ^ 63 := by
  have hlt := binary_lt (ordered.map mask.meets)
  rw [List.length_map, h] at hlt
  rw [toInt_priorityScore h.le]
  omega

/-- Of 64 masks the first falls on the sign. -/
theorem toInt_priorityScore_cons (mask sign : Mask) {rest : List Mask} (h : rest.length = 63) :
    (mask.priorityScore (sign :: rest)).toInt =
      (mask.priorityScore rest).toInt - if mask.meets sign then 2 ^ 63 else 0 := by
  have hlt := binary_lt (rest.map mask.meets)
  rw [List.length_map, h] at hlt
  rw [toInt_priorityScore h.le, ← Int64.toInt_toBitVec, toBitVec_priorityScore,
    BitVec.toInt_eq_toNat_cond, BitVec.toNat_ofNat, List.map_cons, binary_cons, List.length_map, h]
  cases mask.meets sign with
  | false =>
    rw [Bool.toNat_false, if_neg Bool.false_ne_true, Nat.mod_eq_of_lt (by omega),
      if_pos (by omega)]
    omega
  | true =>
    rw [Bool.toNat_true, if_pos rfl, Nat.mod_eq_of_lt (by omega), if_neg (by omega)]
    omega

theorem priorityScore_lt_iff_telling {ordered : List Mask} (h : ordered.length ≤ 63) (a b : Mask) :
    b.priorityScore ordered < a.priorityScore ordered ↔
      ∃ m, telling? a b ordered = some m ∧ a.meets m := by
  rw [Int64.lt_iff_toInt_lt, priorityScore_lt_iff h, map_meets_lt_iff]

theorem priorityScore_eq_iff_telling {ordered : List Mask} (h : ordered.length ≤ 63) (a b : Mask) :
    a.priorityScore ordered = b.priorityScore ordered ↔ telling? a b ordered = none := by
  rw [← Int64.toInt_inj, priorityScore_inj h, map_meets_inj]

/-- Of 64 masks the first one decides the other way round, and the others if it does not. -/
theorem priorityScore_cons_order (a b sign : Mask) {rest : List Mask} (h : rest.length = 63) :
    (b.priorityScore (sign :: rest) < a.priorityScore (sign :: rest) ↔
      if a.meets sign = b.meets sign then ∃ m, telling? a b rest = some m ∧ a.meets m
      else b.meets sign) ∧
    (a.priorityScore (sign :: rest) = b.priorityScore (sign :: rest) ↔
      telling? a b (sign :: rest) = none) := by
  have hlt := priorityScore_lt_iff_telling h.le a b
  have heq := priorityScore_eq_iff_telling h.le a b
  rw [Int64.lt_iff_toInt_lt] at hlt ⊢
  rw [← Int64.toInt_inj] at heq ⊢
  rw [telling?_cons, toInt_priorityScore_cons a sign h, toInt_priorityScore_cons b sign h]
  by_cases hsame : a.meets sign = b.meets sign
  · rw [if_pos hsame, if_pos hsame, hsame, ← hlt, ← heq]
    exact ⟨Int.sub_lt_sub_right_iff, sub_left_inj⟩
  · rw [if_neg hsame, if_neg hsame]
    -- the first digit counts more than all others together
    have ha := toInt_priorityScore_bounds h a
    have hb := toInt_priorityScore_bounds h b
    cases hmeets : b.meets sign with
    | false =>
      have hother : a.meets sign = true := by simpa [hmeets] using hsame
      rw [hother, if_pos rfl, if_neg Bool.false_ne_true]
      exact ⟨iff_of_false (by omega) Bool.false_ne_true, iff_of_false (by omega) nofun⟩
    | true =>
      have hother : a.meets sign = false := by simpa [hmeets] using hsame
      rw [hother, if_pos rfl, if_neg Bool.false_ne_true]
      exact ⟨iff_of_true (by omega) rfl, iff_of_false (by omega) nofun⟩

/-- **The first mask that tells two sets apart decides between their scores**, if there are at most
63 masks.  Of more masks the last 64 count.  Of these the first one decides the other way round,
since it falls on the sign, and the first one of the others if that one does not. -/
theorem priorityScore_order (ordered : List Mask) (a b : Mask) :
    (ordered.length ≤ 63 →
      (b.priorityScore ordered < a.priorityScore ordered ↔
        ∃ m, telling? a b ordered = some m ∧ a.meets m) ∧
      (a.priorityScore ordered = b.priorityScore ordered ↔ telling? a b ordered = none)) ∧
    ∀ dropped sign rest, ordered = dropped ++ sign :: rest → rest.length = 63 →
      (b.priorityScore ordered < a.priorityScore ordered ↔
        if a.meets sign = b.meets sign then ∃ m, telling? a b rest = some m ∧ a.meets m
        else b.meets sign) ∧
      (a.priorityScore ordered = b.priorityScore ordered ↔
        telling? a b (sign :: rest) = none) := by
  refine ⟨fun h => ⟨priorityScore_lt_iff_telling h a b, priorityScore_eq_iff_telling h a b⟩, ?_⟩
  rintro dropped sign rest rfl h
  have hkept : 64 ≤ (sign :: rest).length := by rw [List.length_cons, h]
  rw [priorityScore_append a dropped hkept, priorityScore_append b dropped hkept]
  exact priorityScore_cons_order a b sign h

/-- Of 63 masks the first one decides.  Of 65 masks the second one does, but the other way round. -/
theorem priorityScore_order_singles :
    (2 : Mask).priorityScore ((List.range 63).map single) <
        (1 : Mask).priorityScore ((List.range 63).map single) ∧
      (1 : Mask).priorityScore (4 :: (List.range 64).map single) <
        (2 : Mask).priorityScore (4 :: (List.range 64).map single) := by
  have hshort := (priorityScore_order ((List.range 63).map single) 1 2).1 (by decide)
  have hlong := (priorityScore_order (4 :: (List.range 64).map single) 2 1).2 [4] 1
    ((List.range 63).map fun i => single (i + 1)) (by decide) (by decide)
  exact ⟨hshort.1.2 ⟨1, by decide⟩, hlong.1.2 (by decide)⟩

/-- **Beyond 63 masks an earlier one does not outrank the others.**  Of the first two sets the one
that meets the first of 64 masks has the lower score.  The other two sets have the same score,
although just one of them meets the first of 65 masks. -/
theorem priorityScore_beyond_word :
    (telling? 1 2 ((List.range 64).map single) = some 1 ∧ (1 : Mask).meets 1 = true ∧
      (1 : Mask).priorityScore ((List.range 64).map single) <
        (2 : Mask).priorityScore ((List.range 64).map single)) ∧
    telling? 1 0 (1 :: List.replicate 64 2) = some 1 ∧ (1 : Mask).meets 1 = true ∧
      (1 : Mask).priorityScore (1 :: List.replicate 64 2) =
        (0 : Mask).priorityScore (1 :: List.replicate 64 2) := by
  decide +kernel

end Mask

end Paradigm
