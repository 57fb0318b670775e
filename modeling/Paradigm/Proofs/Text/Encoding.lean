import Mathlib
import Paradigm.Proofs.Text.Bocu
import Paradigm.Proofs.Text.Units
import Paradigm.Storage.KeyEncoding

/-!
# Reading back encoded strings

Each of the encodings of keys can be read back, so that strings with equal bytes are equal.

## Main results

* `Encoding.decode?_encode`: reading undoes writing
* `Encoding.encode_inj`: a string is determined by its bytes
* `Encoding.length_encode`: the length of an encoding
* `Encoding.decode_encode_joined`: round trip, length and texts that are joined
* `Encoding.ofNumber_number`: an encoding is determined by its number
-/

namespace Paradigm.Text.Encoding

/-- The bytes of units are read as these, whatever follows them. -/
theorem bytesUnits?_unitBytes_append {us : List Nat} (h : ∀ u ∈ us, u < 65536)
    (rest : List UInt8) :
    bytesUnits? (us.flatMap unitBytes ++ rest) = (bytesUnits? rest).map (us ++ ·) := by
  induction us with
  | nil => exact Option.map_id'.symm
  | cons u us ih =>
    have hu : u < 65536 := h u List.mem_cons_self
    have hlow : (UInt8.ofNat (u % 256)).toNat = u % 256 :=
      UInt8.toNat_ofNat_of_lt' (Nat.mod_lt u (by decide))
    have hhigh : (UInt8.ofNat (u / 256)).toNat = u / 256 :=
      UInt8.toNat_ofNat_of_lt' (Nat.div_lt_of_lt_mul hu)
    have hpair : (u :: us).flatMap unitBytes ++ rest =
        UInt8.ofNat (u % 256) :: UInt8.ofNat (u / 256) :: (us.flatMap unitBytes ++ rest) := rfl
    -- a unit is its remainder and its quotient by 256 again
    rw [hpair, bytesUnits?, ih fun v hv => h v (List.mem_cons_of_mem u hv), hlow, hhigh,
      Nat.mod_add_div, Option.map_map]
    rfl

theorem bytesUnits?_unitBytes {us : List Nat} (h : ∀ u ∈ us, u < 65536) :
    bytesUnits? (us.flatMap unitBytes) = some us := by
  have happend := bytesUnits?_unitBytes_append h []
  rwa [bytesUnits?, Option.map_some, List.append_nil, List.append_nil] at happend

/-- Reading undoes writing. -/
theorem decode?_encode (e : Encoding) (s : String) : e.decode? (e.encode s) = some s := by
  cases e with
  | bocu1 => exact Bocu.decode?_encode s
  | utf8 =>
    have hbytes : (s.toList.flatMap String.utf8EncodeChar).toByteArray = s.toByteArray :=
      String.utf8Encode_toList
    rw [decode?, encode, hbytes, String.fromUTF8?, dif_pos s.isValidUTF8]
    rfl
  | utf16le =>
    rw [decode?, encode, bytesUnits?_unitBytes fun u hu => lt_of_mem_units hu]
    show (Units.decode? (units s)).map String.ofList = _
    rw [Units.decode?_units, Option.map_some, String.ofList_toList]

/-- Reading undoes writing. -/
@[simp] theorem decode_encode (e : Encoding) (s : String) : e.decode (e.encode s) = .ok s := by
  rw [decode, decode?_encode]

theorem encode_injective (e : Encoding) : Function.Injective e.encode := by
  intro s t h
  have hs := decode?_encode e s
  rw [h, decode?_encode] at hs
  exact (Option.some.inj hs).symm

/-- A string is determined by its bytes. -/
@[simp] theorem encode_inj {e : Encoding} {s t : String} : e.encode s = e.encode t ↔ s = t :=
  (encode_injective e).eq_iff

/-! ## Lengths -/

theorem length_flatMap_unitBytes (us : List Nat) :
    (us.flatMap unitBytes).length = us.length * 2 := by
  induction us with
  | nil => rfl
  | cons u us ih =>
    have hpair : (unitBytes u).length = 2 := rfl
    rw [List.flatMap_cons, List.length_append, hpair, ih, List.length_cons]
    omega

/-- The length that is told for a string is that of its bytes. -/
theorem length_encode (e : Encoding) (s : String) : (e.encode s).length = e.encodedLength s := by
  cases e with
  | bocu1 => exact Bocu.length_encode s
  | utf8 =>
    have hbytes : (s.toList.flatMap String.utf8EncodeChar).toByteArray = s.toByteArray :=
      String.utf8Encode_toList
    rw [encode, ← List.size_toByteArray, hbytes]
    rfl
  | utf16le => exact length_flatMap_unitBytes (units s)

/-- **No encoding loses anything**: every string is read back from its bytes, which are as many as
are told for it.  The encoding that depends on what came before reads texts that are joined by the
byte that restores its first state as one text. -/
theorem decode_encode_joined :
    (∀ (e : Encoding) (s : String),
      e.decode (e.encode s) = .ok s ∧ (e.encode s).length = e.encodedLength s) ∧
      ∀ ss : List String, bocu1.decode ([Bocu.reset].intercalate (ss.map bocu1.encode)) =
        .ok (String.join ss) := by
  constructor
  · intro e s
    exact ⟨decode_encode e s, length_encode e s⟩
  · intro ss
    have hread : bocu1.decode? ([Bocu.reset].intercalate (ss.map bocu1.encode)) =
        some (String.join ss) := Bocu.decode?_intercalate ss
    rw [decode, hread]

/-! ## Zeros in UTF-8 -/

theorem ne_zero_of_mem_utf8EncodeChar {c : Char} (hc : c ≠ '\x00') :
    ∀ b ∈ String.utf8EncodeChar c, b ≠ 0 := by
  have hpos : c.val.toNat ≠ 0 := by
    intro hzero
    exact hc (Char.ext (UInt32.toNat_inj.1 hzero))
  have hlt : c.val.toNat < 0x110000 := Bocu.toNat_lt c
  -- every byte is a number from 1 to 255
  have hbyte {n : Nat} (h₁ : 0 < n) (h₂ : n < 256) : UInt8.ofNat n ≠ 0 := by
    intro hzero
    have htoNat := congrArg UInt8.toNat hzero
    rw [UInt8.toNat_ofNat_of_lt' h₂] at htoNat
    exact h₁.ne' htoNat
  -- one case for each number of bytes
  unfold String.utf8EncodeChar
  dsimp only
  intro b hb
  split at hb
  · obtain rfl := List.mem_singleton.1 hb
    exact hbyte (by omega) (by omega)
  split at hb
  · simp only [List.mem_cons, List.not_mem_nil, or_false] at hb
    rcases hb with rfl | rfl <;> exact hbyte (by omega) (by omega)
  split at hb
  · simp only [List.mem_cons, List.not_mem_nil, or_false] at hb
    rcases hb with rfl | rfl | rfl <;> exact hbyte (by omega) (by omega)
  · simp only [List.mem_cons, List.not_mem_nil, or_false] at hb
    rcases hb with rfl | rfl | rfl | rfl <;> exact hbyte (by omega) (by omega)

/-- The bytes up to the first zero are those of the characters up to the first zero. -/
theorem takeWhile_utf8 (cs : List Char) (count : Nat) :
    (cs.flatMap String.utf8EncodeChar ++ List.replicate count 0).takeWhile (· ≠ 0) =
      (cs.takeWhile (· ≠ '\x00')).flatMap String.utf8EncodeChar := by
  induction cs with
  | nil => simp
  | cons c cs ih =>
    rw [List.flatMap_cons, List.append_assoc]
    by_cases hc : c = '\x00'
    · subst hc
      rfl
    · have hbytes : ∀ b ∈ String.utf8EncodeChar c, decide (b ≠ 0) := fun b hb =>
        decide_eq_true (ne_zero_of_mem_utf8EncodeChar hc b hb)
      rw [List.takeWhile_append_of_pos hbytes, ih, List.takeWhile_cons, if_pos (by simpa using hc),
        List.flatMap_cons]

/-- An encoding is determined by its number. -/
theorem ofNumber_number (e : Encoding) : ofNumber e.number = .ok e := by
  cases e <;> rfl

end Paradigm.Text.Encoding
