import Mathlib
import Paradigm.Proofs.Outcome
import Paradigm.Proofs.Storage.Bits
import Paradigm.Proofs.Storage.Locality
import Paradigm.Storage.PackedArray

/-!
# The values of packed arrays

The words of a packed array are one run of bits, and the value at an index is the run of its width
from the index times the width on.  Replacing a value changes no bit outside its run, so that an
array built from a list holds the list, and it still does after it was written and read.

## Main definitions

* `PackedArray.bitAt`: the bit at a position of a run of words
* `PackedArray.Holds`: the array answers with the values of a list
* `PackedArray.mappedForm`: the array as it is read from a file

## Main results

* `PackedArray.bits_replaceBits`: a replacement changes one value
* `PackedArray.holds_ofList`: an array that was built holds its list
* `PackedArray.readsBack_write`: a stored array is read back
-/

namespace Paradigm

theorem toNat_ofNat {n : Nat} (h : n < addressLimit) : (UInt64.ofNat n).toNat = n :=
  UInt64.toNat_ofNat_of_lt' h

namespace PackedArray

variable {α : Type}

/-! ## Words as a run of bits -/

/-- The bit at a position of a run of words; there are clear bits beyond the end. -/
def bitAt (words : Array UInt64) (k : Nat) : Bool :=
  (words[k / 64]?.elim 0 UInt64.toNat).testBit (k % 64)

theorem wordAt_lt (words : Array UInt64) (i : Nat) : words[i]?.elim 0 UInt64.toNat < 2 ^ 64 := by
  cases words[i]? with
  | none => simp
  | some w => exact w.toNat_lt

theorem testBit_pair (words : Array UInt64) (i : Nat) {j : Nat} (hj : j < 128) :
    (pair words i).testBit j = bitAt words (64 * i + j) := by
  rw [pair, bitLimit_eq, wordBits, Nat.add_comm,
    Nat.testBit_two_pow_mul_add _ (wordAt_lt words i)]
  split
  · rw [bitAt, show (64 * i + j) / 64 = i by omega, show (64 * i + j) % 64 = j by omega]
  · rw [bitAt, show (64 * i + j) / 64 = i + 1 by omega,
      show (64 * i + j) % 64 = j - 64 by omega]

/-- The bits of a value are those of its run. -/
theorem testBit_bits (a : PackedArray α) (index j : Nat) :
    (a.bits index).testBit j = (decide (j < a.width) && bitAt a.words (index * a.width + j)) := by
  have hwidth : a.width ≤ 64 := a.width_le
  simp only [bits, bitLimit_eq, wordBits, Nat.testBit_mod_two_pow, Nat.testBit_div_two_pow]
  by_cases hj : j < a.width
  · rw [testBit_pair _ _ (by omega)]
    congr 2
    omega
  · simp [hj]

/-- The values of an array end within its words. -/
theorem end_le (a : PackedArray α) {index : Nat} (h : index < a.length) :
    index * a.width + a.width ≤ a.words.size * 64 := by
  calc index * a.width + a.width = (index + 1) * a.width := by rw [Nat.succ_mul]
    _ ≤ a.length * a.width := Nat.mul_le_mul_right _ h
    _ ≤ a.words.size * 64 := a.fits

/-! ## Replacing a value -/

theorem testBit_splice {n start width value : Nat} (hv : value < 2 ^ width) (j : Nat) :
    (splice n start width value).testBit j =
      if j < start then n.testBit j
      else if j < start + width then value.testBit (j - start) else n.testBit j := by
  have hlow : n % 2 ^ start < 2 ^ start := Nat.mod_lt _ (Nat.two_pow_pos _)
  -- the number is the upper part, the value and the lower part, one above the other
  rw [splice, bitLimit_eq, bitLimit_eq, bitLimit_eq, Nat.add_comm,
    Nat.testBit_two_pow_mul_add _ hlow, Nat.testBit_mod_two_pow, Nat.add_comm value,
    Nat.testBit_two_pow_mul_add _ hv, Nat.testBit_div_two_pow]
  by_cases h₁ : j < start
  · simp [h₁]
  · by_cases h₂ : j < start + width
    · simp [h₁, h₂, show j - start < width by omega]
    · simp [h₁, h₂, show ¬ j - start < width by omega,
        show j - start - width + (start + width) = j by omega]

/-- The bits of the two words that a run lies in, as one number in which the run is replaced. -/
theorem testBit_splice_pair (words : Array UInt64) (start : Nat) {width value : Nat}
    (hv : value < 2 ^ width) {j : Nat} (hj : j < 128) :
    (splice (pair words (start / 64)) (start % 64) width value).testBit j =
      if start ≤ 64 * (start / 64) + j ∧ 64 * (start / 64) + j < start + width then
        value.testBit (64 * (start / 64) + j - start)
      else bitAt words (64 * (start / 64) + j) := by
  rw [testBit_splice hv, testBit_pair _ _ hj]
  by_cases h₁ : j < start % 64
  · rw [if_pos h₁, if_neg (by omega)]
  · by_cases h₂ : j < start % 64 + width
    · rw [if_neg h₁, if_pos h₂, if_pos (by omega)]
      congr 1
      omega
    · rw [if_neg h₁, if_neg h₂, if_neg (by omega)]

/-- A replacement writes the bits of its run and no others. -/
theorem bitAt_withBits (a : PackedArray α) {index value : Nat} (hindex : index < a.length)
    (hv : value < 2 ^ a.width) (k : Nat) :
    bitAt (a.withBits index value) k =
      if index * a.width ≤ k ∧ k < index * a.width + a.width then
        value.testBit (k - index * a.width)
      else bitAt a.words k := by
  have hpos : 1 ≤ a.width := a.width_pos
  have hwidth : a.width ≤ 64 := a.width_le
  have hfits := a.end_le hindex
  generalize hs : index * a.width = start at hfits
  have hbit {j : Nat} (hj : j < 128) := testBit_splice_pair a.words start hv hj
  rw [bitAt, withBits, hs]
  simp only [wordBits, bitLimit_eq, Array.getElem?_setIfInBounds, Array.size_setIfInBounds]
  by_cases hhigh : start / 64 + 1 = k / 64
  · by_cases hin : start / 64 + 1 < a.words.size
    · -- the position is in the second word
      simp only [hhigh, ↓reduceIte, show k / 64 < a.words.size by omega, Option.elim_some]
      rw [UInt64.toNat_ofNat', Nat.testBit_mod_two_pow, Nat.testBit_div_two_pow,
        hbit (by omega), show 64 * (start / 64) + (k % 64 + 64) = k by omega]
      simp [show k % 64 < 64 by omega]
    · -- there is no second word, and the value ends before it
      simp only [hhigh, ↓reduceIte, show ¬ k / 64 < a.words.size by omega, Option.elim_none]
      rw [if_neg (by omega), bitAt, Array.getElem?_eq_none (by omega)]
      simp
  · simp only [hhigh, ↓reduceIte]
    by_cases hlow : start / 64 = k / 64
    · -- the position is in the first word
      simp only [hlow, ↓reduceIte, show k / 64 < a.words.size by omega, Option.elim_some]
      rw [← hlow, UInt64.toNat_ofNat', Nat.testBit_mod_two_pow, hbit (by omega),
        show 64 * (start / 64) + k % 64 = k by omega]
      simp [show k % 64 < 64 by omega]
    · simp only [hlow, ↓reduceIte]
      rw [if_neg (by omega), bitAt]

/-- A replacement changes one value. -/
theorem bits_replaceBits (a : PackedArray α) {index value : Nat} (hindex : index < a.length)
    (hv : value < 2 ^ a.width) (i : Nat) :
    (a.replaceBits index value).bits i = if i = index then value else a.bits i := by
  apply Nat.eq_of_testBit_eq
  intro j
  rw [testBit_bits, words_replaceBits, width_replaceBits, bitAt_withBits a hindex hv]
  by_cases hi : i = index
  · subst hi
    by_cases hj : j < a.width
    · rw [if_pos (by omega), Nat.add_sub_cancel_left, if_pos rfl]
      simp [hj]
    · have : value.testBit j = false :=
        Nat.testBit_lt_two_pow (hv.trans_le (Nat.pow_le_pow_right (by omega) (by omega)))
      simp [hj, this]
  · rw [if_neg hi, testBit_bits]
    by_cases hj : j < a.width
    · rw [if_neg]
      rintro ⟨hle, hlt⟩
      -- the runs of two values do not meet
      rcases Nat.lt_or_gt_of_ne hi with h | h
      · have := Nat.mul_le_mul_right a.width h
        rw [Nat.succ_mul] at this
        omega
      · have := Nat.mul_le_mul_right a.width h
        rw [Nat.succ_mul] at this
        omega
    · simp [hj]

/-! ## Arrays in a file -/

theorem ext_fields {a b : PackedArray α} (hwords : a.words = b.words)
    (hlength : a.length = b.length) (hwidth : a.width = b.width) (hmapped : a.mapped = b.mapped) :
    a = b := by
  obtain ⟨_, _, _, _, _, _, _⟩ := a
  obtain ⟨_, _, _, _, _, _, _⟩ := b
  dsimp only at hwords hlength hwidth hmapped
  subst hwords hlength hwidth hmapped
  rfl

/-- The array as it is read from a file: it cannot be written to, and it is as long as its words
allow. -/
def mappedForm (a : PackedArray α) : PackedArray α :=
  { a with
    length := a.words.size * wordBits / a.width
    mapped := true
    fits := Nat.div_mul_le_self _ _ }

theorem length_le_mappedForm (a : PackedArray α) : a.length ≤ a.mappedForm.length :=
  (Nat.le_div_iff_mul_le a.width_pos).2 a.fits

/-- A stored array is read back. -/
theorem readsBack_write {a : PackedArray α} {out out' : Writer} (h : a.write out = .ok out') :
    ReadsBack out out' (read α) a.mappedForm := by
  obtain ⟨mid, hmid, h⟩ := Except.bind_eq_ok.1 h
  obtain rfl := Except.ok.inj h
  have hwidth : (Int32.ofNat a.width).toInt.toNat = a.width := by
    have := a.width_le
    rw [toInt_ofNat_of_lt (by rw [countLimit]; rw [wordBits] at this; omega), Int.toNat_natCast]
  refine (readsBack_putCount hmid).bind ((readsBack_put mid (Int32.ofNat a.width)).bind ?_)
  rw [dif_pos (by rw [hwidth]; exact ⟨a.width_pos, a.width_le⟩)]
  refine (readsBack_putAll (mid.put (Int32.ofNat a.width)) a.words.toList).bind ?_
  refine ReadsBack.pure_of_eq ?_ _
  refine ext_fields Array.toArray_toList ?_ hwidth rfl
  -- the length is not stored: it is what the words have room for
  show a.words.toList.toArray.size * wordBits / _ = a.words.size * wordBits / a.width
  rw [hwidth, Array.toArray_toList]

theorem local_read : Reader.Local (read α) := by
  apply Reader.local_readCount.bind
  intro count
  apply (Reader.local_read Int32).bind
  intro width
  split
  · exact (Reader.local_readArray UInt64 count).bind fun _ => Reader.local_pure _
  · exact Reader.local_throw _

/-! ## Arrays in memory -/

/-- What an array of zeros is, where there is one. -/
theorem zeros_eq_ok {width length : Nat} {a : PackedArray α} (h : zeros width length = .ok a) :
    1 ≤ width ∧ length * width < addressLimit ∧ a.width = width ∧ a.length = length ∧
      a.mapped = false ∧ a.words = .replicate ((length * width) ⌈/⌉ wordBits) 0 := by
  unfold zeros at h
  split at h
  · rename_i hwidth
    split at h
    · rename_i hlimit
      obtain rfl := Except.ok.inj h
      exact ⟨hwidth.1, hlimit, rfl, rfl, rfl, rfl⟩
    · cases h
  · cases h

theorem exists_zeros {width length : Nat} (hwidth : 1 ≤ width ∧ width ≤ wordBits)
    (hlength : length * width < addressLimit) :
    ∃ a : PackedArray α, zeros width length = .ok a := by
  unfold zeros
  rw [dif_pos hwidth, if_pos hlength]
  exact ⟨_, rfl⟩

/-- The bits of an array of zeros are clear. -/
theorem bits_zeros {width length : Nat} {a : PackedArray α} (h : zeros width length = .ok a)
    (i : Nat) : a.bits i = 0 := by
  obtain ⟨-, -, -, -, -, hwords⟩ := zeros_eq_ok h
  apply Nat.eq_of_testBit_eq
  intro j
  rw [testBit_bits, bitAt, hwords, Array.getElem?_replicate]
  split <;> simp

theorem Step.run_eq_ok_iff {s : Step α Unit} {a b : PackedArray α} :
    Step.run s a = .ok b ↔ s a = .ok () b := by
  have hrun : EStateM.run s a = s a := rfl
  rw [Step.run, hrun]
  cases s a with
  | ok u c => simp
  | error e c => simp

variable [FixedInt α]

theorem ofNat_toNat_toWord (v : α) : (FixedInt.ofNat (FixedInt.toWord v).toNat : α) = v :=
  FixedInt.ofWord_toWord v

/-- What a replacement does: everything is checked before a word is changed. -/
theorem set_apply (a : PackedArray α) (index : Nat) (v : α) :
    set index v a =
      if bitLimit a.width ≤ (FixedInt.toWord v).toNat then
        .error (.fieldOverflow "value" (FixedInt.toWord v) a.width) a
      else if a.length ≤ index then .error (.indexOutOfBounds index a.length) a
      else if a.mapped then .error .readOnly a
      else .ok () (a.replaceBits index (FixedInt.toWord v).toNat) := by
  simp only [set, bind, EStateM.bind, getThe, MonadStateOf.get, EStateM.get]
  split
  · rfl
  split
  · rfl
  split
  · rfl
  · rfl

theorem set_eq_ok {a : PackedArray α} {index : Nat} {v : α} (hmapped : a.mapped = false)
    (hindex : index < a.length) (hv : (FixedInt.toWord v).toNat < 2 ^ a.width) :
    set index v a = .ok () (a.replaceBits index (FixedInt.toWord v).toNat) := by
  rw [set_apply, bitLimit_eq, if_neg (Nat.not_le_of_lt hv), if_neg (Nat.not_le_of_lt hindex),
    hmapped]
  rfl

theorem setAll_cons {a b : PackedArray α} {index : Nat} {v : α} {vs : List α}
    (h : set index v a = EStateM.Result.ok () b) :
    setAll index (v :: vs) a = setAll (index + 1) vs b := by
  simp only [setAll, bind, EStateM.bind, h]

/-- Values that fit are stored from an index on, and all others stay. -/
theorem setAll_eq_ok {a : PackedArray α} {index : Nat} {values : List α}
    (hmapped : a.mapped = false) (hlength : index + values.length ≤ a.length)
    (hfit : ∀ v ∈ values, (FixedInt.toWord v).toNat < 2 ^ a.width) :
    ∃ b : PackedArray α, setAll index values a = .ok () b ∧ b.width = a.width ∧
      b.length = a.length ∧ b.mapped = false ∧
      ∀ i, b.bits i = if h : index ≤ i ∧ i < index + values.length then
        (FixedInt.toWord (values.get ⟨i - index, by omega⟩)).toNat else a.bits i := by
  induction values generalizing a index with
  | nil =>
    refine ⟨a, rfl, rfl, rfl, hmapped, fun i => ?_⟩
    rw [dif_neg]
    simp only [List.length_nil]
    omega
  | cons v vs ih =>
    have hv := hfit v (by simp)
    have hindex : index < a.length := by simp at hlength; omega
    have hset := set_eq_ok hmapped hindex hv
    have hbits := a.bits_replaceBits hindex hv
    have hrest : index + 1 + vs.length ≤ a.length := by simp at hlength; omega
    generalize hc : a.replaceBits index (FixedInt.toWord v).toNat = c at hset hbits
    have hcwidth : c.width = a.width := hc ▸ rfl
    have hclength : c.length = a.length := hc ▸ rfl
    have hcmapped : c.mapped = false := hc ▸ hmapped
    obtain ⟨b, hb, hwidth, hlen, hm, hall⟩ := ih hcmapped (hclength ▸ hrest) fun w hw => by
      rw [hcwidth]
      exact hfit w (by simp [hw])
    refine ⟨b, (setAll_cons hset).trans hb, hwidth.trans hcwidth, hlen.trans hclength, hm,
      fun i => ?_⟩
    · -- the first value lies before the others, which do not touch it
      rw [hall, hbits]
      by_cases hi : i = index
      · subst hi
        rw [dif_neg (by omega), if_pos rfl, dif_pos (by simp)]
        simp
      · by_cases hin : index + 1 ≤ i ∧ i < index + 1 + vs.length
        · rw [dif_pos hin, dif_pos (by simp; omega)]
          simp only [show i - index = (i - (index + 1)) + 1 by omega, List.get_cons_succ]
        · rw [dif_neg hin, if_neg hi, dif_neg (by simp; omega)]

theorem le_foldl_or (word : UInt64) (values : List α) :
    word.toNat ≤ (values.foldl (fun word v => word ||| FixedInt.toWord v) word).toNat := by
  induction values generalizing word with
  | nil => exact le_rfl
  | cons v vs ih =>
    rw [List.foldl_cons]
    refine le_trans ?_ (ih _)
    rw [UInt64.toNat_or]
    exact Nat.left_le_or

theorem toWord_le_foldl_or {values : List α} {v : α} (hv : v ∈ values) (word : UInt64) :
    (FixedInt.toWord v).toNat ≤
      (values.foldl (fun word v => word ||| FixedInt.toWord v) word).toNat := by
  induction values generalizing word with
  | nil => cases hv
  | cons w vs ih =>
    rw [List.foldl_cons]
    rcases List.mem_cons.1 hv with rfl | hv
    · refine le_trans ?_ (le_foldl_or _ _)
      rw [UInt64.toNat_or]
      exact Nat.right_le_or
    · exact ih hv _

/-- Every value of a list fits the width of the list. -/
theorem toWord_lt_widthOf {values : List α} {v : α} (hv : v ∈ values) :
    (FixedInt.toWord v).toNat < 2 ^ widthOf values :=
  toNat_lt_bitWidth_of_le (toWord_le_foldl_or hv 0)

/-- A list is stored in an array of zeros, value by value. -/
theorem ofList_eq_ok_iff {values : List α} {a : PackedArray α} :
    ofList values = .ok a ↔ ∃ z : PackedArray α, zeros (widthOf values) values.length = .ok z ∧
      setAll 0 values z = .ok () a := by
  unfold ofList
  cases zeros (α := α) (widthOf values) values.length with
  | error e => simp [bind, Except.bind]
  | ok z => simp only [Except.ok_bind, Step.run_eq_ok_iff, Except.ok.injEq, exists_eq_left']

/-- An array built from a list has the width and the length of the list and the bits of its values.
All other bits are clear. -/
theorem ofList_eq_ok {values : List α} {a : PackedArray α} (h : ofList values = .ok a) :
    a.width = widthOf values ∧ a.length = values.length ∧ a.mapped = false ∧
      ∀ i, a.bits i = values[i]?.elim 0 fun v => (FixedInt.toWord v).toNat := by
  obtain ⟨z, hz, h⟩ := ofList_eq_ok_iff.1 h
  obtain ⟨-, -, hwidth, hlength, hmapped, -⟩ := zeros_eq_ok hz
  have hroom : 0 + values.length ≤ z.length := by omega
  obtain ⟨b, hb, hbwidth, hblength, hbmapped, hbits⟩ := setAll_eq_ok hmapped hroom fun v hv => by
    rw [hwidth]
    exact toWord_lt_widthOf hv
  obtain ⟨-, rfl⟩ := EStateM.Result.ok.inj (h.symm.trans hb)
  refine ⟨hbwidth.trans hwidth, hblength.trans hlength, hbmapped, fun i => ?_⟩
  rw [hbits]
  by_cases hi : i < values.length
  · rw [dif_pos (by omega), List.getElem?_eq_getElem hi]
    rfl
  -- behind the values there are the zeros that the array began with
  · rw [dif_neg (by omega), List.getElem?_eq_none (by omega), bits_zeros hz]
    rfl

/-- A list that would lie within the addresses in the greatest width can be stored. -/
theorem exists_ofList {values : List α} (h : values.length * wordBits < addressLimit) :
    ∃ a, ofList values = .ok a := by
  have hwidth : 1 ≤ widthOf values ∧ widthOf values ≤ wordBits :=
    ⟨one_le_bitWidth _, bitWidth_le _⟩
  have hlength : values.length * widthOf values < addressLimit :=
    (Nat.mul_le_mul_left _ hwidth.2).trans_lt h
  obtain ⟨z, hz⟩ := exists_zeros (α := α) hwidth hlength
  obtain ⟨-, -, hzwidth, hzlength, hzmapped, -⟩ := zeros_eq_ok hz
  have hroom : 0 + values.length ≤ z.length := by omega
  obtain ⟨a, ha, -⟩ := setAll_eq_ok hzmapped hroom fun v hv => by
    rw [hzwidth]
    exact toWord_lt_widthOf hv
  exact ⟨a, ofList_eq_ok_iff.2 ⟨z, hz, ha⟩⟩

theorem lt_addressLimit_of_ofList {values : List α} {a : PackedArray α}
    (h : ofList values = .ok a) : values.length < addressLimit := by
  obtain ⟨z, hz, -⟩ := ofList_eq_ok_iff.1 h
  obtain ⟨hpos, hlimit, -⟩ := zeros_eq_ok hz
  exact (Nat.le_mul_of_pos_right values.length hpos).trans_lt hlimit

/-! ## The values held -/

/-- The array answers with the values of a list, at their numbers. -/
def Holds (a : PackedArray α) (values : List α) : Prop :=
  ∀ i (h : i < values.length), a.get i = .ok values[i]

theorem Holds.get? {a : PackedArray α} {values : List α} (h : a.Holds values) {i : Nat} {v : α}
    (hv : values[i]? = some v) : a.get i = .ok v := by
  obtain ⟨hi, rfl⟩ := List.getElem?_eq_some_iff.1 hv
  exact h i hi

theorem Holds.length_le {a : PackedArray α} {values : List α} (h : a.Holds values) :
    values.length ≤ a.length := by
  by_contra hlt
  -- an index at the length of the array is refused
  have hget := h a.length (by omega)
  rw [get, if_neg (Nat.lt_irrefl _)] at hget
  cases hget

/-- An array that was built holds its list. -/
theorem holds_ofList {values : List α} {a : PackedArray α} (h : ofList values = .ok a) :
    a.Holds values := by
  obtain ⟨-, hlength, -, hbits⟩ := ofList_eq_ok h
  intro i hi
  rw [get, if_pos (by omega), hbits, List.getElem?_eq_getElem hi, Option.elim_some,
    ofNat_toNat_toWord]

/-- A run of the list is read value by value. -/
theorem Holds.run {a : PackedArray α} {values : List α} (h : a.Holds values) {start count : Nat}
    (hrun : start + count ≤ values.length) :
    a.run start count = .ok ((values.drop start).take count) := by
  rw [PackedArray.run, valuesFrom_eq_mapM]
  induction count generalizing start with
  | zero => simp
  | succ count ih =>
    have hstart : start < values.length := by omega
    have hrest : start + 1 + count ≤ values.length := by omega
    rw [List.range'_succ, List.mapM_cons, h start hstart, Except.ok_bind, ih hrest, Except.ok_bind,
      List.drop_eq_getElem_cons hstart, List.take_succ_cons]
    rfl

theorem Holds.mappedForm {a : PackedArray α} {values : List α} (h : a.Holds values) :
    a.mappedForm.Holds values := by
  intro i hi
  have hle := h.length_le
  have hle' := a.length_le_mappedForm
  have hget := h i hi
  rw [get, if_pos (by omega)] at hget ⊢
  exact hget

/-- Without values there are no words, and with values there are some. -/
theorem isEmpty_ofList {values : List α} {a : PackedArray α} (h : ofList values = .ok a) :
    a.isEmpty = values.isEmpty := by
  obtain ⟨z, hz, hset⟩ := ofList_eq_ok_iff.1 h
  obtain ⟨-, hlength, -, -⟩ := ofList_eq_ok h
  cases values with
  | nil =>
    obtain ⟨-, rfl⟩ := EStateM.Result.ok.inj hset
    obtain ⟨-, -, -, -, -, hwords⟩ := zeros_eq_ok hz
    simp [isEmpty, hwords]
  | cons v vs =>
    -- one value takes at least one bit, and so at least one word
    have hfits := a.fits
    have hpos := a.width_pos
    have hsize : 0 < a.words.size := by
      rw [hlength] at hfits
      have : 0 < (v :: vs).length * a.width := Nat.mul_pos (by simp) hpos
      by_contra hzero
      simp only [show a.words.size = 0 by omega, Nat.zero_mul] at hfits
      omega
    simp only [isEmpty, List.isEmpty_cons, Array.isEmpty_eq_false_iff]
    exact Array.ne_empty_of_size_pos hsize

end PackedArray

end Paradigm
