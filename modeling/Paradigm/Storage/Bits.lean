import Paradigm.Storage.Error

/-!
# Runs of bits in words

Packed values and record fields are runs of bits in 64-bit words, lowest bit first.

## Main definitions

* `bitLimit`: the number of values of a number of bits
* `bitWidth`: the number of bits that a value needs
* `bitsOfNat`: a number as a list of bits, lowest first
* `bitsOfWord`, `bitsOfWords`: the bits of a word, and of words one after the other
* `popCount`, `trailingZeros`: the number of set bits, and of clear bits below the lowest set one
* `bitMask`, `lowMask`, `widthMask`: words with one bit set, and with the lowest bits set
* `Checked.shiftLeft`, `Checked.shiftRight`: words shifted by fewer places than they have bits
* `extractBits`: a run of bits of a word
-/

namespace Paradigm

/-- The number of bits of a storage word. -/
def wordBits : Nat := 64

/-- The number of values that `n` bits have. -/
def bitLimit (n : Nat) : Nat := Nat.pow 2 n

/-- The number of bits that a value needs, at least one. -/
def bitWidth (value : UInt64) : Nat :=
  if value = 0 then 1 else value.toNat.log2 + 1

/-- The `n` lowest bits of a number, lowest first. -/
def bitsOfNat : Nat → Nat → List Bool
  | 0, _ => []
  | n + 1, v => (v % 2 == 1) :: bitsOfNat n (v / 2)

/-! ## The bits of a word -/

/-- The bits of a word, lowest first. -/
def bitsOfWord (w : UInt64) : List Bool := bitsOfNat wordBits w.toNat

/-- The bits of words, one word after the other. -/
def bitsOfWords (ws : List UInt64) : List Bool := ws.flatMap bitsOfWord

/-- The number of set bits of a word. -/
def popCount (w : UInt64) : Nat := (bitsOfWord w).foldr (fun b n => b.toNat + n) 0

/-- The number of clear bits below the lowest set bit of a word; that of all bits if none is set. -/
def trailingZeros (w : UInt64) : Nat := (bitsOfWord w).idxOf true

/-- The word with one bit set. -/
def bitMask (n : Nat) : UInt64 := 1 <<< UInt64.ofNat n

/-- The word with the `n` lowest bits set. -/
def lowMask (n : Nat) : UInt64 := bitMask n - 1

/-- The word whose `n` lowest bits are set, or all of them if it has no more. -/
def widthMask (n : Nat) : UInt64 :=
  if n < wordBits then lowMask n else UInt64.ofNat (bitLimit wordBits - 1)

/-- A word shifted up by fewer places than it has bits. -/
def Checked.shiftLeft (w : UInt64) (places : Nat) : Checked UInt64 :=
  if places < wordBits then .ok (w <<< UInt64.ofNat places) else .error (.shift places)

/-- A word shifted down by fewer places than it has bits. -/
def Checked.shiftRight (w : UInt64) (places : Nat) : Checked UInt64 :=
  if places < wordBits then .ok (w >>> UInt64.ofNat places) else .error (.shift places)

/-- The bits of a word from `start` on, `length` of them.  The run must end within the word, and its
end must be a 32-bit number. -/
def extractBits (value : UInt64) (start length : UInt32) : Except StorageError UInt64 := do
  let stop ← Checked.add halfLimit start.toNat length.toNat
  if wordBits < stop then throw (.illegalRange start.toNat length.toNat)
  else if length = 0 then return 0
  else return (← Checked.shiftRight value start.toNat) &&& widthMask length.toNat

section Masks

variable {w : UInt64} {n : Nat}

theorem toNat_bitMask (h : n < wordBits) : (bitMask n).toNat = bitLimit n := by
  have hn : n < UInt64.size := Nat.lt_trans h (by decide)
  have hpow : 2 ^ n < 2 ^ 64 := Nat.pow_lt_pow_right (by decide) h
  rw [bitMask, UInt64.toNat_shiftLeft, UInt64.toNat_ofNat_of_lt' hn,
    Nat.mod_eq_of_lt (show n < 64 from h), Nat.shiftLeft_eq, UInt64.toNat_one, Nat.one_mul,
    Nat.mod_eq_of_lt hpow]
  rfl

theorem toNat_lowMask (h : n < wordBits) : (lowMask n).toNat = bitLimit n - 1 := by
  have hle : 1 ≤ bitMask n := by
    rw [UInt64.le_iff_toNat_le, toNat_bitMask h]
    exact Nat.one_le_two_pow
  rw [lowMask, UInt64.toNat_sub_of_le _ _ hle, toNat_bitMask h, UInt64.toNat_one]

/-- A bit above those of a word makes a number of one more bit. -/
theorem or_bitMask_lt (h : n < wordBits) (hw : w.toNat < bitLimit n) :
    (w ||| bitMask n).toNat < bitLimit (n + 1) := by
  have hpow : bitLimit n < bitLimit (n + 1) := Nat.pow_lt_pow_right (by decide) (Nat.lt_succ_self n)
  rw [UInt64.toNat_or, toNat_bitMask h]
  exact Nat.or_lt_two_pow (Nat.lt_trans hw hpow) hpow

theorem and_lowMask_lt (h : n < wordBits) : (w &&& lowMask n).toNat < bitLimit n := by
  rw [UInt64.toNat_and, toNat_lowMask h]
  exact Nat.and_lt_two_pow _ (Nat.sub_lt (Nat.two_pow_pos n) Nat.one_pos)

end Masks

end Paradigm
