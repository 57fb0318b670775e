import Mathlib
import Paradigm.Proofs.Outcome
import Paradigm.Storage.Bits

/-!
# Numbers as runs of bits

A width holds the values below a power of two, the bits of a number are listed by its binary form,
and extracting a run of bits is a division and a remainder.

## Main results

* `toNat_lt_bitWidth_of_le`: a value fits the width that a greater one needs
* `getElem?_bitsOfWord`: the bits of a word are those of its number
* `bitsOfWord_set`, `bitsOfWord_low`, `bitsOfWord_not`, `idxsOf_clearLowest`: bits that are set, cut
  off, turned over and cleared
* `extractBits_eq`: a run within the word is a quotient modulo a power of two
* `extractBits_zero_eq_self_iff`: the values that fit a number of bits
-/

namespace Paradigm

theorem bitLimit_eq (n : Nat) : bitLimit n = 2 ^ n := rfl

/-! ## Widths -/

theorem bitWidth_le (v : UInt64) : bitWidth v ≤ 64 := by
  unfold bitWidth
  split
  · omega
  · rename_i h
    have hne : v.toNat ≠ 0 := fun hv => h (UInt64.toNat_inj.1 hv)
    have hlt : v.toNat.log2 < 64 := (Nat.log2_lt hne).2 v.toNat_lt
    omega

theorem one_le_bitWidth (v : UInt64) : 1 ≤ bitWidth v := by
  unfold bitWidth
  split <;> omega

/-- A width is kept as a 32-bit number. -/
theorem toNat_ofNat_bitWidth (v : UInt64) : (UInt32.ofNat (bitWidth v)).toNat = bitWidth v :=
  UInt32.toNat_ofNat_of_lt' ((bitWidth_le v).trans_lt (by decide))

/-- The width of a value is the number of its digits in base two, or one for zero. -/
theorem bitWidth_eq_size (v : UInt64) : bitWidth v = max 1 v.toNat.size := by
  unfold bitWidth
  split
  · rename_i hv
    subst hv
    simp
  · rename_i h
    have hne : v.toNat ≠ 0 := fun hv => h (UInt64.toNat_inj.1 hv)
    have hle : v.toNat.size ≤ v.toNat.log2 + 1 := Nat.size_le.2 Nat.lt_log2_self
    have hlt : v.toNat.log2 < v.toNat.size := Nat.lt_size.2 (Nat.log2_self_le hne)
    omega

/-- A value fits the width that a greater one needs. -/
theorem toNat_lt_bitWidth_of_le {v w : UInt64} (h : v.toNat ≤ w.toNat) :
    v.toNat < 2 ^ bitWidth w := by
  unfold bitWidth
  split
  · rename_i hw
    subst hw
    have hv : v.toNat = 0 := Nat.le_zero.1 h
    simp [hv]
  · exact h.trans_lt Nat.lt_log2_self

/-! ## Lists of bits -/

@[simp] theorem length_bitsOfNat (n v : Nat) : (bitsOfNat n v).length = n := by
  induction n generalizing v with
  | zero => rfl
  | succ n ih => simp [bitsOfNat, ih]

theorem bitsOfNat_zero (n : Nat) : bitsOfNat n 0 = List.replicate n false := by
  induction n with
  | zero => rfl
  | succ n ih => simp [bitsOfNat, ih, List.replicate_succ]

theorem getElem?_bitsOfNat (n v i : Nat) :
    (bitsOfNat n v)[i]? = if i < n then some (v.testBit i) else none := by
  induction n generalizing v i with
  | zero => simp [bitsOfNat]
  | succ n ih =>
    cases i with
    | zero =>
      rw [bitsOfNat, List.getElem?_cons_zero, if_pos n.succ_pos, Nat.testBit_zero]
      rfl
    | succ i => simp [bitsOfNat, ih, Nat.testBit_succ]

/-! ## The bits of a word -/

section Words

variable {w : UInt64} {n i : Nat}

@[simp] theorem length_bitsOfWord (w : UInt64) : (bitsOfWord w).length = 64 :=
  length_bitsOfNat _ _

theorem getElem?_bitsOfWord (h : i < 64) : (bitsOfWord w)[i]? = some (w.toNat.testBit i) := by
  rw [bitsOfWord, getElem?_bitsOfNat]
  exact if_pos h

/-- Words have the same bits if their numbers have. -/
theorem bitsOfWord_eq {bits : List Bool} (hlength : bits.length = 64)
    (h : ∀ i < 64, bits[i]? = some (w.toNat.testBit i)) : bitsOfWord w = bits := by
  apply List.ext_getElem?
  intro i
  by_cases hi : i < 64
  · rw [getElem?_bitsOfWord hi, h i hi]
  · rw [List.getElem?_eq_none (by simpa using hi), List.getElem?_eq_none (by omega)]

theorem popCount_eq (w : UInt64) : popCount w = (bitsOfWord w).count true := by
  rw [popCount]
  induction bitsOfWord w with
  | nil => rfl
  | cons b bits ih =>
    rw [List.foldr_cons, ih, List.count_cons]
    cases b <;> simp [Nat.add_comm]

theorem bitsOfWord_zero : bitsOfWord 0 = List.replicate 64 false := bitsOfNat_zero 64

/-- One bit is set. -/
theorem bitsOfWord_set (h : n < 64) :
    bitsOfWord (w ||| bitMask n) = (bitsOfWord w).set n true := by
  apply bitsOfWord_eq (by simp)
  intro i hi
  rw [UInt64.toNat_or, toNat_bitMask h, Nat.testBit_or, bitLimit_eq, Nat.testBit_two_pow,
    List.getElem?_set]
  split
  · rename_i hni
    subst hni
    simp [hi]
  · rename_i hni
    simp [getElem?_bitsOfWord hi, hni]

/-- The lowest bits are kept. -/
theorem bitsOfWord_low (h : n < 64) : bitsOfWord (w &&& lowMask n) =
    (bitsOfWord w).take n ++ List.replicate (64 - n) false := by
  apply bitsOfWord_eq (by simp; omega)
  intro i hi
  rw [UInt64.toNat_and, toNat_lowMask h, Nat.testBit_and, bitLimit_eq, Nat.testBit_two_pow_sub_one]
  by_cases hin : i < n
  · rw [List.getElem?_append_left (by simp; omega), List.getElem?_take_of_lt hin,
      getElem?_bitsOfWord hi]
    simp [hin]
  · rw [List.getElem?_append_right (by simp; omega), List.getElem?_replicate]
    simp [hin]
    omega

/-- All bits are turned over. -/
theorem bitsOfWord_not (w : UInt64) : bitsOfWord (~~~ w) = (bitsOfWord w).map not := by
  apply bitsOfWord_eq (by simp)
  intro i hi
  have hnot : (~~~ w).toNat = 2 ^ 64 - (w.toNat + 1) := by
    rw [UInt64.toNat_not, UInt64.size]
    omega
  rw [hnot, Nat.testBit_two_pow_sub_succ w.toNat_lt, List.getElem?_map, getElem?_bitsOfWord hi]
  simp [hi]

/-- The bit at a position is the lowest one after a shift. -/
theorem shiftRight_and_one (h : n < 64) :
    ((w >>> UInt64.ofNat n) &&& 1 == 1) = w.toNat.testBit n := by
  have hn : (UInt64.ofNat n).toNat = n :=
    UInt64.toNat_ofNat_of_lt' (h.trans (by decide))
  rw [Bool.eq_iff_iff, beq_iff_eq, ← UInt64.toNat_inj, UInt64.toNat_and, UInt64.toNat_shiftRight,
    hn, Nat.mod_eq_of_lt h, UInt64.toNat_one, Nat.and_one_is_mod, Nat.testBit_eq_decide_div_mod_eq,
    Nat.shiftRight_eq_div_pow, decide_eq_true_iff]

theorem idxsOf_bitsOfNat_clearLowest (n start : Nat) {v : Nat} (h : v ≠ 0) :
    (bitsOfNat n (v &&& (v - 1))).idxsOf true start =
      ((bitsOfNat n v).idxsOf true start).tail := by
  induction n generalizing v start with
  | zero => rfl
  | succ n ih =>
    rcases Nat.mod_two_eq_zero_or_one v with heven | hodd
    -- the lowest set bit of an even number is that of its half
    · have hhalf : (v - 1) / 2 = v / 2 - 1 := by omega
      have hlow : (v &&& (v - 1)) % 2 = 0 := by
        rw [Nat.mod_two_eq_zero_iff_testBit_zero]
        simp [heven]
      rw [bitsOfNat, bitsOfNat, hlow, heven, Nat.and_div_two, hhalf]
      simpa using ih (start + 1) (v := v / 2) (by omega)
    -- that of an odd number is its first
    · have hhalf : (v - 1) / 2 = v / 2 := by omega
      have hlow : (v &&& (v - 1)) % 2 = 0 := by
        have heven : (v - 1) % 2 = 0 := by omega
        rw [Nat.mod_two_eq_zero_iff_testBit_zero]
        simp [heven]
      rw [bitsOfNat, bitsOfNat, hlow, hodd, Nat.and_div_two, hhalf, Nat.and_self]
      simp

/-- The lowest set bit is cleared. -/
theorem idxsOf_clearLowest (h : 1 ≤ w) :
    (bitsOfWord (w &&& (w - 1))).idxsOf true = ((bitsOfWord w).idxsOf true).tail := by
  have hle : 1 ≤ w.toNat := UInt64.le_iff_toNat_le.1 h
  rw [bitsOfWord, UInt64.toNat_and, UInt64.toNat_sub_of_le _ _ h, UInt64.toNat_one]
  exact idxsOf_bitsOfNat_clearLowest _ 0 (Nat.ne_of_gt hle)

end Words

/-! ## Runs of bits -/

theorem testBit_not {w : UInt64} {j : Nat} (h : j < wordBits) :
    (~~~w).toNat.testBit j = !w.toNat.testBit j := by
  rw [← UInt64.toNat_toBitVec, BitVec.testBit_toNat, UInt64.toBitVec_not, BitVec.getLsbD_not,
    ← BitVec.testBit_toNat, UInt64.toNat_toBitVec]
  exact Bool.and_eq_right_iff_imp.2 fun _ => decide_eq_true h

/-- What a mask keeps of a word is its remainder. -/
theorem toNat_and_widthMask (w : UInt64) (n : Nat) :
    (w &&& widthMask n).toNat = w.toNat % 2 ^ n := by
  unfold widthMask
  split
  next hlt =>
    rw [UInt64.toNat_and, toNat_lowMask hlt, bitLimit_eq, Nat.and_two_pow_sub_one_eq_mod]
  next hge =>
    -- a whole word is below the power of two
    have hword : w.toNat < 2 ^ n :=
      w.toNat_lt.trans_le (Nat.pow_le_pow_right Nat.two_pos (Nat.le_of_not_lt hge))
    have hall : (UInt64.ofNat (bitLimit wordBits - 1)).toNat = 2 ^ 64 - 1 := rfl
    rw [UInt64.toNat_and, hall, Nat.and_two_pow_sub_one_eq_mod, Nat.mod_eq_of_lt w.toNat_lt,
      Nat.mod_eq_of_lt hword]

/-- A shift by fewer places than a word has is a division. -/
theorem toNat_shiftRight (w : UInt64) {n : Nat} (h : n < wordBits) :
    (w >>> UInt64.ofNat n).toNat = w.toNat / 2 ^ n := by
  have hword : n < UInt64.size := Nat.lt_trans h (by decide)
  rw [UInt64.toNat_shiftRight, UInt64.toNat_ofNat_of_lt' hword,
    Nat.mod_eq_of_lt (show n < 64 from h), Nat.shiftRight_eq_div_pow]

section Runs

variable {value run : UInt64} {start length : UInt32}

/-- The end of a run must be a 32-bit number. -/
theorem extractBits_eq_outOfRange (h : halfLimit ≤ start.toNat + length.toNat) :
    extractBits value start length =
      .error (.outOfRange (.sum start.toNat length.toNat)) := by
  rw [extractBits, Checked.add_eq_error h]
  rfl

/-- A run that ends beyond the word is refused. -/
theorem extractBits_eq_illegalRange (hword : wordBits < start.toNat + length.toNat)
    (h : start.toNat + length.toNat < halfLimit) :
    extractBits value start length = .error (.illegalRange start.toNat length.toNat) := by
  rw [extractBits, Checked.add_eq_ok h, Checked.liftM_ok, Except.ok_bind, if_pos hword]
  rfl

/-- A run within the word is a quotient by one power of two modulo another. -/
theorem exists_extractBits (h : start.toNat + length.toNat ≤ wordBits) :
    ∃ run, extractBits value start length = .ok run ∧
      run.toNat = value.toNat / 2 ^ start.toNat % 2 ^ length.toNat := by
  have hsum : start.toNat + length.toNat < halfLimit := h.trans_lt (by decide)
  rw [extractBits, Checked.add_eq_ok hsum, Checked.liftM_ok, Except.ok_bind,
    if_neg (Nat.not_lt.2 h)]
  split
  next hzero => exact ⟨0, rfl, by simp [hzero, Nat.mod_one]⟩
  next hzero =>
    -- a run of some bits begins within the word
    have hpos : 0 < length.toNat := Nat.pos_of_ne_zero fun h => hzero (UInt32.toNat_inj.1 h)
    have hstart : start.toNat < wordBits := by omega
    rw [Checked.shiftRight, if_pos hstart]
    exact ⟨_, rfl, by rw [toNat_and_widthMask, toNat_shiftRight value hstart]⟩

theorem extractBits_eq (h : start.toNat + length.toNat ≤ wordBits) :
    extractBits value start length =
      .ok (UInt64.ofNat (value.toNat / 2 ^ start.toNat % 2 ^ length.toNat)) := by
  obtain ⟨run, hrun, hnat⟩ := @exists_extractBits value start length h
  rw [hrun, ← hnat, UInt64.ofNat_toNat]

theorem extractBits_zero (h : length.toNat ≤ 64) :
    extractBits value 0 length = .ok (UInt64.ofNat (value.toNat % 2 ^ length.toNat)) := by
  have hword : (0 : UInt32).toNat + length.toNat ≤ wordBits := by
    rw [UInt32.toNat_zero, Nat.zero_add]
    exact h
  rw [extractBits_eq hword]
  simp

/-- A run is found only within the word. -/
theorem le_of_extractBits (h : extractBits value start length = .ok run) :
    start.toNat + length.toNat ≤ wordBits := by
  by_contra hlong
  rw [not_le] at hlong
  rcases Nat.lt_or_ge (start.toNat + length.toNat) halfLimit with hlt | hge
  · rw [extractBits_eq_illegalRange hlong hlt] at h
    cases h
  · rw [extractBits_eq_outOfRange hge] at h
    cases h

theorem length_le_of_extractBits_zero (h : extractBits value 0 length = .ok run) :
    length.toNat ≤ 64 := by
  have hword := le_of_extractBits h
  rwa [UInt32.toNat_zero, Nat.zero_add] at hword

/-- A value is its own run from the lowest bit on exactly if it fits. -/
theorem extractBits_zero_eq_self_iff : extractBits value 0 length = .ok value ↔
    length.toNat ≤ 64 ∧ value.toNat < 2 ^ length.toNat := by
  constructor
  · intro h
    have hlength := length_le_of_extractBits_zero h
    rw [extractBits_zero hlength] at h
    -- the value is its own remainder
    have hval := congrArg UInt64.toNat (Except.ok.inj h)
    rw [UInt64.toNat_ofNat_of_lt' ((Nat.mod_le _ _).trans_lt value.toNat_lt)] at hval
    refine ⟨hlength, ?_⟩
    rw [← hval]
    exact Nat.mod_lt _ (Nat.two_pow_pos _)
  · rintro ⟨hlength, hvalue⟩
    rw [extractBits_zero hlength, Nat.mod_eq_of_lt hvalue, UInt64.ofNat_toNat]

end Runs

end Paradigm
