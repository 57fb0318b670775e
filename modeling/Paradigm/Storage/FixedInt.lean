/-!
# Fixed-width integers

The eight integer types of the format.  A value is stored as its two's complement, low byte first,
and becomes a 64-bit word by sign extension; a word or an integer becomes a value by dropping high
bits.

## Main definitions

* `IntWidth`: the widths of integer types, with `IntWidth.bytes`
* `FixedInt`: an integer type with its width and its conversions
* `FixedInt.toWord`, `FixedInt.ofWord`: sign extension and truncation
* `FixedInt.toBytes`, `FixedInt.ofBytes`: the stored form
* `FixedInt.split`: integers that lie one after the other
* `IntKind`: the integer types by name

## Main results

* `FixedInt.ofWord_toWord`: truncation undoes sign extension
* `FixedInt.ofBytes_toBytes`: reading undoes writing
-/

namespace Paradigm

/-! ## Bytes of a number -/

/-- The `n` lowest bytes of a number, low byte first. -/
def bytesOfNat : Nat → Nat → List UInt8
  | 0, _ => []
  | n + 1, v => UInt8.ofNat (v % 256) :: bytesOfNat n (v / 256)

/-- The number of values that `n` bytes have. -/
def byteLimit (n : Nat) : Nat := Nat.pow 256 n

theorem byteLimit_succ (n : Nat) : byteLimit (n + 1) = 256 * byteLimit n :=
  Nat.mul_comm (byteLimit n) 256

theorem byteLimit_dvd {m n : Nat} (h : m ≤ n) : byteLimit m ∣ byteLimit n :=
  Nat.pow_dvd_pow 256 h

/-- The number with the given bytes, low byte first. -/
def natOfBytes : List UInt8 → Nat
  | [] => 0
  | b :: bs => b.toNat + 256 * natOfBytes bs

@[simp] theorem length_bytesOfNat (n v : Nat) : (bytesOfNat n v).length = n := by
  induction n generalizing v with
  | zero => rfl
  | succ n ih => simp [bytesOfNat, ih]

theorem natOfBytes_bytesOfNat (n v : Nat) : natOfBytes (bytesOfNat n v) = v % byteLimit n := by
  induction n generalizing v with
  | zero => simp [bytesOfNat, natOfBytes, byteLimit, Nat.mod_one]
  | succ n ih =>
    have hlow : (UInt8.ofNat (v % 256)).toNat = v % 256 := by simp
    simp only [bytesOfNat, natOfBytes, ih, hlow]
    rw [byteLimit_succ, Nat.mod_mul]

/-! ## Integer types -/

/-- The widths of integer types, in bits. -/
inductive IntWidth where
  | w8
  | w16
  | w32
  | w64

/-- The number of bytes of an integer. -/
def IntWidth.bytes : IntWidth → Nat
  | w8 => 1
  | w16 => 2
  | w32 => 4
  | w64 => 8

theorem IntWidth.bytes_pos (w : IntWidth) : 0 < w.bytes := by cases w <;> decide

theorem IntWidth.bytes_le (w : IntWidth) : w.bytes ≤ 8 := by cases w <;> decide

/-- An integer type of one to eight bytes. -/
class FixedInt (α : Type) where
  /-- The width of a value. -/
  width : IntWidth
  /-- The integer that a value stands for. -/
  toInt : α → Int
  /-- The value that an integer wraps to. -/
  ofInt : Int → α
  ofInt_toInt : ∀ a, ofInt (toInt a) = a
  ofInt_emod : ∀ i, ofInt (i % (byteLimit width.bytes : Int)) = ofInt i

namespace FixedInt

/-- The number of bytes of a value. -/
def size (α : Type) [FixedInt α] : Nat := (width α).bytes

variable {α : Type} [FixedInt α]

/-- The word that a value becomes by sign extension. -/
def toWord (a : α) : UInt64 := UInt64.ofInt (toInt a)

/-- The value that the low bytes of a number stand for. -/
def ofNat (n : Nat) : α := ofInt n

/-- The value that the low bytes of a word stand for. -/
def ofWord (w : UInt64) : α := ofNat w.toNat

/-- The stored form of a value. -/
def toBytes (a : α) : List UInt8 := bytesOfNat (size α) (toWord a).toNat

/-- The value with the given stored form. -/
def ofBytes (bs : List UInt8) : α := ofNat (natOfBytes bs)

@[simp] theorem length_toBytes (a : α) : (toBytes a).length = size α := by simp [toBytes]

theorem ofNat_mod (n : Nat) : (ofNat (n % byteLimit (size α)) : α) = ofNat n := by
  rw [ofNat, Int.natCast_emod, size, ofInt_emod, ofNat]

theorem toNat_toWord (a : α) : ((toWord a).toNat : Int) = toInt a % (byteLimit 8 : Int) := by
  have h : byteLimit 8 = 18446744073709551616 := by decide
  simp only [toWord, UInt64.ofInt, UInt64.toNat_ofNat', h]
  omega

theorem ofWord_toWord (a : α) : (ofWord (toWord a) : α) = a := by
  have hdvd : (byteLimit (width α).bytes : Int) ∣ (byteLimit 8 : Int) :=
    Int.natCast_dvd_natCast.2 (byteLimit_dvd (IntWidth.bytes_le _))
  rw [ofWord, ofNat, toNat_toWord, ← ofInt_emod, Int.emod_emod_of_dvd _ hdvd, ofInt_emod,
    ofInt_toInt]

theorem ofBytes_toBytes (a : α) : (ofBytes (toBytes a) : α) = a := by
  rw [ofBytes, toBytes, natOfBytes_bytesOfNat, ofNat_mod, ← ofWord, ofWord_toWord]

/-- Cuts bytes into `count` integers. -/
def split (α : Type) [FixedInt α] : Nat → List UInt8 → List α
  | 0, _ => []
  | count + 1, bytes => ofBytes (bytes.take (size α)) :: split α count (bytes.drop (size α))

@[simp] theorem length_split (α : Type) [FixedInt α] (count : Nat) (bytes : List UInt8) :
    (split α count bytes).length = count := by
  induction count generalizing bytes with
  | zero => rfl
  | succ count ih => simp [split, ih]

end FixedInt

instance : FixedInt Int8 where
  width := .w8
  toInt := Int8.toInt
  ofInt := Int8.ofInt
  ofInt_toInt := Int8.ofInt_toInt
  ofInt_emod i := Int8.toInt_inj.1 <| by
    simp only [Int8.toInt_ofInt]; exact Int.emod_bmod i (byteLimit 1)

instance : FixedInt Int16 where
  width := .w16
  toInt := Int16.toInt
  ofInt := Int16.ofInt
  ofInt_toInt := Int16.ofInt_toInt
  ofInt_emod i := Int16.toInt_inj.1 <| by
    simp only [Int16.toInt_ofInt]; exact Int.emod_bmod i (byteLimit 2)

instance : FixedInt Int32 where
  width := .w32
  toInt := Int32.toInt
  ofInt := Int32.ofInt
  ofInt_toInt := Int32.ofInt_toInt
  ofInt_emod i := Int32.toInt_inj.1 <| by
    simp only [Int32.toInt_ofInt]; exact Int.emod_bmod i (byteLimit 4)

instance : FixedInt Int64 where
  width := .w64
  toInt := Int64.toInt
  ofInt := Int64.ofInt
  ofInt_toInt := Int64.ofInt_toInt
  ofInt_emod i := Int64.toInt_inj.1 <| by
    simp only [Int64.toInt_ofInt]; exact Int.emod_bmod i (byteLimit 8)

instance : FixedInt UInt8 where
  width := .w8
  toInt a := a.toNat
  ofInt := UInt8.ofInt
  ofInt_toInt a := by
    have h := a.toNat_lt
    have : ((a.toNat : Int) % 256).toNat = a.toNat := by omega
    simp [UInt8.ofInt, this]
  ofInt_emod i := by
    have h : byteLimit 1 = 256 := by decide
    simp [UInt8.ofInt, IntWidth.bytes, h]

instance : FixedInt UInt16 where
  width := .w16
  toInt a := a.toNat
  ofInt := UInt16.ofInt
  ofInt_toInt a := by
    have h := a.toNat_lt
    have : ((a.toNat : Int) % 65536).toNat = a.toNat := by omega
    simp [UInt16.ofInt, this]
  ofInt_emod i := by
    have h : byteLimit 2 = 65536 := by decide
    simp [UInt16.ofInt, IntWidth.bytes, h]

instance : FixedInt UInt32 where
  width := .w32
  toInt a := a.toNat
  ofInt := UInt32.ofInt
  ofInt_toInt a := by
    have h := a.toNat_lt
    have : ((a.toNat : Int) % 4294967296).toNat = a.toNat := by omega
    simp [UInt32.ofInt, this]
  ofInt_emod i := by
    have h : byteLimit 4 = 4294967296 := by decide
    simp [UInt32.ofInt, IntWidth.bytes, h]

instance : FixedInt UInt64 where
  width := .w64
  toInt a := a.toNat
  ofInt := UInt64.ofInt
  ofInt_toInt a := by
    have h := a.toNat_lt
    have : ((a.toNat : Int) % 18446744073709551616).toNat = a.toNat := by omega
    simp [UInt64.ofInt, this]
  ofInt_emod i := by
    have h : byteLimit 8 = 18446744073709551616 := by decide
    simp [UInt64.ofInt, IntWidth.bytes, h]

/-! ## Integer types by name -/

/-- The names of the integer types. -/
inductive IntKind where
  | int8
  | int16
  | int32
  | int64
  | uint8
  | uint16
  | uint32
  | uint64
  deriving DecidableEq, Repr

namespace IntKind

/-- The type with a given name. -/
abbrev Carrier : IntKind → Type
  | int8 => Int8
  | int16 => Int16
  | int32 => Int32
  | int64 => Int64
  | uint8 => UInt8
  | uint16 => UInt16
  | uint32 => UInt32
  | uint64 => UInt64

instance instFixedInt : (k : IntKind) → FixedInt k.Carrier
  | int8 => inferInstanceAs (FixedInt Int8)
  | int16 => inferInstanceAs (FixedInt Int16)
  | int32 => inferInstanceAs (FixedInt Int32)
  | int64 => inferInstanceAs (FixedInt Int64)
  | uint8 => inferInstanceAs (FixedInt UInt8)
  | uint16 => inferInstanceAs (FixedInt UInt16)
  | uint32 => inferInstanceAs (FixedInt UInt32)
  | uint64 => inferInstanceAs (FixedInt UInt64)

end IntKind

end Paradigm
