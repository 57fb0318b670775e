import Mathlib
import Paradigm.Proofs.Storage.PackedArray

/-!
# Values cut out of words and put into them

A value is taken out of the word in which it begins, and out of the next one as well if it does not
end there.  The words are looked up and may be missing, and the bits of the value are put together
by operations on words.  An array has enough words for its length, so that no word is ever missed
and the value is the one that the bits of the array tell.

In the same way a value is put in place of another one: in one word or in two, the bits under a mask
are replaced.  These are the bits of the run of the value and no others.

## Main definitions

* `PackedArray.Place`, `PackedArray.locate`: where a value lies among the words
* `PackedArray.extract`: the bits of a value, out of one word or two
* `PackedArray.tryGet`: the value at an index, with all words looked up
* `PackedArray.overwrite`, `PackedArray.insert`: bits put into one word, and into those of a value
* `PackedArray.trySet`: the value at an index replaced, with all words looked up

## Main results

* `PackedArray.tryGet_eq`: no word is missed
* `PackedArray.trySet_eq`: no other bit is changed
-/

namespace Paradigm

namespace PackedArray

open MonadExcept (ofExcept)

variable {α : Type}

/-! ## Reading from words -/

/-- Where a value lies: its first word, the position of its lowest bit there, and its last word. -/
structure Place where
  first : Nat
  shift : Nat
  last : Nat

/-- Where the value at an index lies; the index and the last word are checked. -/
def locate (a : PackedArray α) (index : Nat) : Except StorageError Place :=
  let start := index * a.width
  let last := (start + a.width - 1) / wordBits
  if a.length ≤ index then .error (.indexOutOfBounds index a.length)
  else if a.words.size ≤ last then .error (.indexOutOfBounds index a.length)
  else .ok ⟨start / wordBits, start % wordBits, last⟩

/-- The word with a number. -/
def word (a : PackedArray α) (i : Nat) : Except StorageError UInt64 :=
  match a.words[i]? with
  | some w => .ok w
  | none => .error (.indexOutOfBounds i a.words.size)

/-- The bits of the value at a place. -/
def extract (a : PackedArray α) (p : Place) : Except StorageError UInt64 := do
  let low := (← a.word p.first) >>> UInt64.ofNat p.shift
  if p.last = p.first then return low &&& widthMask a.width
  let high := (← a.word p.last) <<< UInt64.ofNat (wordBits - p.shift)
  return (low ||| high) &&& widthMask a.width

/-- The value at an index, cut out of the words in which it lies. -/
def tryGet [FixedInt α] (a : PackedArray α) (index : Nat) : Except StorageError α := do
  return FixedInt.ofWord (← a.extract (← a.locate index))

/-! ## Writing to words -/

/-- The array with another word at a number. -/
def replaceWord (a : PackedArray α) (i : Nat) (w : UInt64) : PackedArray α :=
  { a with
    words := a.words.setIfInBounds i w
    fits := by rw [Array.size_setIfInBounds]; exact a.fits }

/-- Puts other bits in place of those of a mask, in the word with a number. -/
def overwrite (i : Nat) (mask bits : UInt64) : Step α Unit := do
  let w ← ofExcept (liftM (Checked.element (← getThe (PackedArray α)).words i) :
    Except StorageError UInt64)
  modify (·.replaceWord i (w &&& ~~~mask ||| bits))

/-- Puts the bits of a value at a place, into one word or two. -/
def insert (p : Place) (bits : UInt64) : Step α Unit := do
  let mask := widthMask (← getThe (PackedArray α)).width
  let low := UInt64.ofNat p.shift
  overwrite p.first (mask <<< low) (bits <<< low)
  if p.last = p.first then return
  let high := UInt64.ofNat (wordBits - p.shift)
  overwrite p.last (mask >>> high) (bits >>> high)

/-- Replaces the value at an index, in the words in which it lies. -/
def trySet [FixedInt α] (index : Nat) (value : α) : Step α Unit := do
  let a ← getThe (PackedArray α)
  let bits := FixedInt.toWord value
  if bits &&& ~~~widthMask a.width ≠ 0 then throw (.fieldOverflow "value" bits a.width)
  let p ← ofExcept (a.locate index)
  if a.mapped then throw .readOnly
  insert p bits

/-! ## Bits of words -/

theorem testBit_and_widthMask (w : UInt64) (n j : Nat) :
    (w &&& widthMask n).toNat.testBit j = (decide (j < n) && w.toNat.testBit j) := by
  rw [toNat_and_widthMask, Nat.testBit_mod_two_pow]

theorem toNat_shift {n : Nat} (h : n < 64) : (UInt64.ofNat n).toNat % 64 = n := by
  rw [toNat_ofNat (h.trans (by decide)), Nat.mod_eq_of_lt h]

theorem testBit_shiftRight (w : UInt64) {n : Nat} (h : n < 64) (j : Nat) :
    (w >>> UInt64.ofNat n).toNat.testBit j = w.toNat.testBit (n + j) := by
  rw [UInt64.toNat_shiftRight, toNat_shift h, Nat.testBit_shiftRight]

theorem testBit_shiftLeft (w : UInt64) {n : Nat} (h : n < 64) (j : Nat) :
    (w <<< UInt64.ofNat n).toNat.testBit j =
      (decide (j < 64) && (decide (n ≤ j) && w.toNat.testBit (j - n))) := by
  rw [UInt64.toNat_shiftLeft, toNat_shift h, Nat.testBit_mod_two_pow, Nat.testBit_shiftLeft]

theorem testBit_eq_false_of_lt {v n j : Nat} (hv : v < 2 ^ n) (h : n ≤ j) : v.testBit j = false :=
  Nat.testBit_lt_two_pow (hv.trans_le (Nat.pow_le_pow_right Nat.two_pos h))

theorem testBit_eq_false (w : UInt64) {j : Nat} (h : 64 ≤ j) : w.toNat.testBit j = false :=
  testBit_eq_false_of_lt w.toNat_lt h

theorem testBit_widthMask {n : Nat} (h : n ≤ 64) (j : Nat) :
    (widthMask n).toNat.testBit j = decide (j < n) := by
  have hall : ((-1 : UInt64)).toNat = 2 ^ 64 - 1 := rfl
  have hbit := testBit_and_widthMask (-1) n j
  rw [UInt64.neg_one_and, hall, Nat.testBit_two_pow_sub_one] at hbit
  rw [hbit, Bool.and_eq_left_iff_imp, decide_eq_true_eq, decide_eq_true_eq]
  omega

theorem bitAt_eq {words : Array UInt64} {k i : Nat} {w : UInt64} (hk : k / 64 = i)
    (hw : words[i]? = some w) : bitAt words k = w.toNat.testBit (k % 64) := by
  rw [bitAt, hk, hw, Option.elim_some]

/-! ## No word is missed -/

section Extraction

variable (a : PackedArray α) {index : Nat}

/-- The place of a value, whose last word is one of the array. -/
theorem locate_eq_ok (h : index < a.length) :
    a.locate index = .ok ⟨index * a.width / 64, index * a.width % 64,
        (index * a.width + a.width - 1) / 64⟩ ∧
      (index * a.width + a.width - 1) / 64 < a.words.size := by
  have hend := a.end_le h
  have hpos : 1 ≤ a.width := a.width_pos
  have hlast : (index * a.width + a.width - 1) / 64 < a.words.size := by omega
  refine ⟨?_, hlast⟩
  unfold locate wordBits
  rw [if_neg (Nat.not_le_of_lt h), if_neg (Nat.not_le_of_lt hlast)]

theorem word_eq_ok {i : Nat} (h : i < a.words.size) : a.word i = .ok a.words[i] := by
  rw [word, Array.getElem?_eq_getElem h]

/-- The bits that are cut out of the words are those of the value. -/
theorem exists_extract (h : index < a.length) : ∃ w, a.locate index >>= a.extract = .ok w ∧
    w.toNat = a.bits index := by
  obtain ⟨hlocate, hlast⟩ := a.locate_eq_ok h
  have hpos : 1 ≤ a.width := a.width_pos
  have hwidth : a.width ≤ 64 := a.width_le
  have hbit := a.testBit_bits index
  generalize hstart : index * a.width = start at hlocate hlast hbit
  have hfirst : start / 64 < a.words.size := by omega
  have hlow : a.words[start / 64]? = some a.words[start / 64] := Array.getElem?_eq_getElem hfirst
  rw [hlocate, Except.ok_bind, extract, a.word_eq_ok hfirst, Except.ok_bind]
  dsimp only
  split_ifs with hone
  -- the value ends in its first word
  · refine ⟨_, rfl, Nat.eq_of_testBit_eq fun j => ?_⟩
    rw [testBit_and_widthMask, testBit_shiftRight _ (by omega), hbit]
    by_cases hj : j < a.width
    · rw [bitAt_eq (by omega) hlow, show (start + j) % 64 = start % 64 + j by omega]
    · simp [hj]
  -- the value goes on in the next word, whose bits are put above those of the first
  · have hnext : (start + a.width - 1) / 64 = start / 64 + 1 := by omega
    have hshift : 0 < start % 64 := by omega
    rw [hnext] at hlast ⊢
    have hhigh : a.words[start / 64 + 1]? = some a.words[start / 64 + 1] :=
      Array.getElem?_eq_getElem hlast
    rw [a.word_eq_ok hlast, Except.ok_bind]
    refine ⟨_, rfl, Nat.eq_of_testBit_eq fun j => ?_⟩
    rw [testBit_and_widthMask, UInt64.toNat_or, Nat.testBit_or,
      testBit_shiftRight _ (by omega), testBit_shiftLeft _ (by unfold wordBits; omega), hbit]
    unfold wordBits
    by_cases hj : j < a.width
    · rcases Nat.lt_or_ge j (64 - start % 64) with hbefore | hbehind
      · rw [bitAt_eq (by omega) hlow, show (start + j) % 64 = start % 64 + j by omega]
        simp [hj, Nat.not_le_of_lt hbefore]
      · rw [bitAt_eq (by omega) hhigh, testBit_eq_false _ (by omega),
          show (start + j) % 64 = j - (64 - start % 64) by omega]
        simp [hj, hbehind, show j < 64 by omega]
    · simp [hj]

/-- **No word is missed.**  The value that is cut out of the words is the one at the index, and it
is refused for no other reason than an index beyond the length. -/
theorem tryGet_eq [FixedInt α] (index : Nat) : a.tryGet index = a.get index := by
  rw [get]
  split_ifs with h
  · obtain ⟨w, hw, hbits⟩ := a.exists_extract h
    obtain ⟨p, hp, hextract⟩ := Except.bind_eq_ok.1 hw
    rw [tryGet, hp, Except.ok_bind, hextract, Except.ok_bind, ← hbits]
    rfl
  · have hlocate : a.locate index = .error (.indexOutOfBounds index a.length) :=
      if_pos (Nat.le_of_not_lt h)
    rw [tryGet, hlocate]
    rfl

end Extraction

/-! ## No other bit is changed -/

section Replacement

theorem words_ext {ws ws' : Array UInt64} (hsize : ws.size = ws'.size)
    (h : ∀ k, bitAt ws k = bitAt ws' k) : ws = ws' := by
  refine Array.ext hsize fun i hi hi' => UInt64.toNat_inj.1 (Nat.eq_of_testBit_eq fun j => ?_)
  by_cases hj : j < 64
  · have hbit := h (i * 64 + j)
    rwa [bitAt_eq (by omega) (Array.getElem?_eq_getElem hi),
      bitAt_eq (by omega) (Array.getElem?_eq_getElem hi'),
      show (i * 64 + j) % 64 = j by omega] at hbit
  · rw [testBit_eq_false _ (by omega), testBit_eq_false _ (by omega)]

/-- A value has no bits beyond the width if none is left when those of the width are cleared. -/
theorem and_not_widthMask_eq_zero_iff {w : UInt64} {n : Nat} (h : n ≤ 64) :
    w &&& ~~~widthMask n = 0 ↔ w.toNat < 2 ^ n := by
  have hbit {j : Nat} (hj : j < 64) : (w &&& ~~~widthMask n).toNat.testBit j =
      (w.toNat.testBit j && !decide (j < n)) := by
    rw [UInt64.toNat_and, Nat.testBit_and, testBit_not hj, testBit_widthMask h]
  constructor
  · intro hzero
    refine Nat.lt_pow_two_of_testBit _ fun j hj => ?_
    rcases Nat.lt_or_ge j 64 with hlt | hge
    · have hclear := hbit hlt
      rw [hzero, UInt64.toNat_zero, Nat.zero_testBit,
        decide_eq_false (Nat.not_lt_of_ge hj)] at hclear
      simpa using hclear.symm
    · exact testBit_eq_false w hge
  · intro hlt
    refine UInt64.toNat_inj.1 (Nat.eq_of_testBit_eq fun j => ?_)
    rw [UInt64.toNat_zero, Nat.zero_testBit]
    rcases Nat.lt_or_ge j 64 with hj | hj
    · rw [hbit hj]
      by_cases hn : j < n
      · simp [hn]
      · rw [testBit_eq_false_of_lt hlt (Nat.le_of_not_lt hn), Bool.false_and]
    · exact testBit_eq_false _ hj

/-- Two arrays that differ at most in the bits of their words. -/
structure SameShape (a b : PackedArray α) : Prop where
  size : b.words.size = a.words.size
  length : b.length = a.length
  width : b.width = a.width
  mapped : b.mapped = a.mapped

theorem SameShape.trans {a b c : PackedArray α} (h : a.SameShape b) (h' : b.SameShape c) :
    a.SameShape c where
  size := h'.size.trans h.size
  length := h'.length.trans h.length
  width := h'.width.trans h.width
  mapped := h'.mapped.trans h.mapped

/-- Of one word the bits of the mask are replaced. -/
theorem exists_overwrite {a : PackedArray α} {i : Nat} (h : i < a.words.size)
    (mask bits : UInt64) : ∃ b, overwrite i mask bits a = .ok () b ∧ a.SameShape b ∧
      ∀ k, bitAt b.words k = if k / 64 = i then
        (bits.toNat.testBit (k % 64) || !mask.toNat.testBit (k % 64) && bitAt a.words k)
      else bitAt a.words k := by
  have hw := Array.getElem?_eq_getElem h
  have helement := Checked.element_eq_ok.2 hw
  refine ⟨a.replaceWord i (a.words[i] &&& ~~~mask ||| bits), ?_,
    ⟨Array.size_setIfInBounds, rfl, rfl, rfl⟩, fun k => ?_⟩
  · simp only [overwrite, bind, EStateM.bind, getThe, MonadStateOf.get, EStateM.get, helement]
    rfl
  · have hj : k % 64 < wordBits := Nat.mod_lt k (by decide)
    rw [bitAt, replaceWord, Array.getElem?_setIfInBounds]
    by_cases hk : k / 64 = i
    · rw [if_pos hk, if_pos hk.symm, if_pos h, Option.elim_some, bitAt_eq hk hw, UInt64.toNat_or,
        Nat.testBit_or, UInt64.toNat_and, Nat.testBit_and, testBit_not hj, Bool.or_comm,
        Bool.and_comm]
    · rw [if_neg hk, if_neg (Ne.symm hk), bitAt]

section Parts

variable {bits : UInt64} {start width k : Nat}

/-- In the word in which a value begins its bits are moved up. -/
theorem replaced_low (hwidth : width ≤ 64) (hbits : bits.toNat < 2 ^ width)
    (hk : k / 64 = start / 64) (b : Bool) :
    ((bits <<< UInt64.ofNat (start % 64)).toNat.testBit (k % 64) ||
        !(widthMask width <<< UInt64.ofNat (start % 64)).toNat.testBit (k % 64) && b) =
      if start ≤ k ∧ k < start + width then bits.toNat.testBit (k - start) else b := by
  rw [testBit_shiftLeft _ (by omega), testBit_shiftLeft _ (by omega), testBit_widthMask hwidth]
  by_cases hbelow : start ≤ k
  · rw [show k % 64 - start % 64 = k - start by omega]
    by_cases hin : k - start < width
    · simp [hin, hbelow, show k % 64 < 64 by omega, show start % 64 ≤ k % 64 by omega,
        show k < start + width by omega]
    · have hclear := testBit_eq_false_of_lt hbits (Nat.le_of_not_lt hin)
      simp [hin, hclear, show ¬ k < start + width by omega]
  · simp [hbelow, show ¬ start % 64 ≤ k % 64 by omega]

/-- In the word in which a value ends its bits are moved down. -/
theorem replaced_high (hwidth : width ≤ 64) (hbits : bits.toNat < 2 ^ width)
    (hk : k / 64 = start / 64 + 1) (hshift : 0 < start % 64) (b : Bool) :
    ((bits >>> UInt64.ofNat (64 - start % 64)).toNat.testBit (k % 64) ||
        !(widthMask width >>> UInt64.ofNat (64 - start % 64)).toNat.testBit (k % 64) && b) =
      if k < start + width then bits.toNat.testBit (k - start) else b := by
  rw [testBit_shiftRight _ (by omega), testBit_shiftRight _ (by omega), testBit_widthMask hwidth,
    show 64 - start % 64 + k % 64 = k - start by omega]
  by_cases hin : k - start < width
  · simp [hin, show k < start + width by omega]
  · have hclear := testBit_eq_false_of_lt hbits (Nat.le_of_not_lt hin)
    simp [hin, hclear, show ¬ k < start + width by omega]

end Parts

/-- An array of the same shape whose bits are those after a replacement is the array after it. -/
theorem SameShape.eq_replaceBits {a b : PackedArray α} {index value : Nat} (h : a.SameShape b)
    (hindex : index < a.length) (hv : value < 2 ^ a.width)
    (hbits : ∀ k, bitAt b.words k =
      if index * a.width ≤ k ∧ k < index * a.width + a.width then
        value.testBit (k - index * a.width)
      else bitAt a.words k) : b = a.replaceBits index value := by
  refine ext_fields (words_ext (h.size.trans (a.size_withBits index value).symm) fun k => ?_)
    h.length h.width h.mapped
  rw [hbits]
  exact (bitAt_withBits a hindex hv k).symm

/-- The bits that are put at the place of a value are those that its run is replaced with. -/
theorem insert_eq_ok {a : PackedArray α} {index : Nat} {p : Place} {bits : UInt64}
    (hindex : index < a.length) (hp : a.locate index = .ok p) (hbits : bits.toNat < 2 ^ a.width) :
    insert p bits a = .ok () (a.replaceBits index bits.toNat) := by
  obtain ⟨hlocate, hlast⟩ := a.locate_eq_ok hindex
  obtain rfl := Except.ok.inj (hlocate.symm.trans hp)
  have hpos : 1 ≤ a.width := a.width_pos
  have hwidth : a.width ≤ 64 := a.width_le
  have hreplaced {b : PackedArray α} (h : a.SameShape b) := h.eq_replaceBits hindex hbits
  generalize index * a.width = start at hlast hreplaced
  obtain ⟨b, hb, hbshape, hlow⟩ := exists_overwrite (a := a) (i := start / 64) (by omega)
    (widthMask a.width <<< UInt64.ofNat (start % 64)) (bits <<< UInt64.ofNat (start % 64))
  simp only [insert, bind, EStateM.bind, getThe, MonadStateOf.get, EStateM.get, hb]
  split_ifs with hone
  -- the value ends in its first word
  · refine congrArg _ (hreplaced hbshape fun k => ?_)
    rw [hlow]
    by_cases hk : k / 64 = start / 64
    · rw [if_pos hk, replaced_low hwidth hbits hk]
    · rw [if_neg hk, if_neg (by omega)]
  -- the value goes on in the next word, which is still as it was
  · have hnext : (start + a.width - 1) / 64 = start / 64 + 1 := by omega
    rw [hnext] at hlast ⊢
    obtain ⟨c, hc, hcshape, hhigh⟩ := exists_overwrite (a := b) (i := start / 64 + 1)
      (by rwa [hbshape.size]) (widthMask a.width >>> UInt64.ofNat (64 - start % 64))
      (bits >>> UInt64.ofNat (64 - start % 64))
    refine hc.trans (congrArg _ (hreplaced (hbshape.trans hcshape) fun k => ?_))
    rw [hhigh, hlow]
    by_cases hk : k / 64 = start / 64
    · rw [if_neg (by omega), if_pos hk, replaced_low hwidth hbits hk]
    · rw [if_neg hk]
      by_cases hk' : k / 64 = start / 64 + 1
      · rw [if_pos hk', replaced_high hwidth hbits hk' (by omega)]
        exact if_congr (by omega) rfl rfl
      · rw [if_neg hk', if_neg (by omega)]

theorem trySet_apply [FixedInt α] (a : PackedArray α) (index : Nat) (v : α) :
    trySet index v a =
      if bitLimit a.width ≤ (FixedInt.toWord v).toNat then
        .error (.fieldOverflow "value" (FixedInt.toWord v) a.width) a
      else match a.locate index with
        | .error e => .error e a
        | .ok p => if a.mapped then .error .readOnly a else insert p (FixedInt.toWord v) a := by
  have hmask := @and_not_widthMask_eq_zero_iff (FixedInt.toWord v) _ a.width_le
  simp only [trySet, bind, EStateM.bind, getThe, MonadStateOf.get, EStateM.get]
  by_cases hwide : bitLimit a.width ≤ (FixedInt.toWord v).toNat
  · rw [if_pos hwide, if_pos (mt hmask.1 (Nat.not_lt_of_le hwide))]
    rfl
  · rw [if_neg hwide, if_neg (not_not_intro (hmask.2 (Nat.lt_of_not_le hwide)))]
    cases a.locate index with
    | error e => rfl
    | ok p =>
      simp only [ofExcept, pure, EStateM.pure, EStateM.bind]
      split
      · rfl
      · rfl

/-- **No other bit is changed.**  A value that is put into the words in which it lies replaces its
run of bits.  It is refused for the same reasons, before any word is written. -/
theorem trySet_eq [FixedInt α] (index : Nat) (v : α) :
    (trySet index v : Step α Unit) = set index v := by
  funext a
  rw [trySet_apply, set_apply]
  rcases Nat.lt_or_ge index a.length with hindex | hindex
  · obtain ⟨p, hlocate⟩ : ∃ p, a.locate index = .ok p := ⟨_, (a.locate_eq_ok hindex).1⟩
    simp only [hlocate, Nat.not_le_of_lt hindex, if_false]
    split_ifs with hwide hmapped
    · rfl
    · rfl
    · exact insert_eq_ok hindex hlocate (Nat.lt_of_not_le hwide)
  · have hlocate : a.locate index = .error (.indexOutOfBounds index a.length) := if_pos hindex
    rw [hlocate, if_pos hindex]

end Replacement

end PackedArray

end Paradigm
