import Mathlib
import Paradigm.Proofs.Text.Bocu.Order
import Paradigm.Proofs.Text.Encoding

/-!
# Beginnings and order of encoded strings

A string begins with another one exactly when its bytes begin with those of the other one.  The
bytes of a string are read as this string whatever follows them, so that longer bytes are read as
something that begins with it.

Two of the encodings also keep the order of strings by their code points.  The third does not: it
puts the low byte of a unit first, and surrogates below the units of smaller characters.

## Main definitions

* `codePoints`: the code points of a string
* `Utf8.lead`, `Utf8.trailBytes`: the first byte and the other bytes of a character in UTF-8

## Main results

* `Encoding.encode_prefix_iff`: beginnings of strings are beginnings of their bytes
* `Utf8.before_utf8EncodeChar`: the order of characters is that of their bytes in UTF-8
* `Encoding.compare_encode_eq`: the order of strings is that of their bytes in two encodings
-/

namespace Paradigm.Text

/-! ## Beginnings -/

namespace Encoding

/-- The bytes of a string begin with those of its beginnings. -/
theorem encode_prefix {e : Encoding} {s t : String} (h : s.toList <+: t.toList) :
    e.encode s <+: e.encode t := by
  obtain ⟨cs, hcs⟩ := h
  cases e with
  | bocu1 =>
    show Bocu.encodeFrom _ _ <+: Bocu.encodeFrom _ _
    rw [← hcs, Bocu.encodeFrom_append]
    exact List.prefix_append _ _
  | utf8 =>
    show s.toList.flatMap _ <+: t.toList.flatMap _
    rw [← hcs, List.flatMap_append]
    exact List.prefix_append _ _
  | utf16le =>
    show (s.toList.flatMap _).flatMap _ <+: (t.toList.flatMap _).flatMap _
    rw [← hcs, List.flatMap_append, List.flatMap_append]
    exact List.prefix_append _ _

/-- A string whose bytes begin with those of another one begins with the other one. -/
theorem prefix_of_encode_prefix {e : Encoding} {s t : String} (h : e.encode s <+: e.encode t) :
    s.toList <+: t.toList := by
  obtain ⟨rest, hrest⟩ := h
  have hread : e.decode? (e.encode s ++ rest) = some t := by rw [hrest, decode?_encode]
  cases e with
  | bocu1 =>
    rw [decode?, encode, Bocu.decode?, Bocu.encode,
      Bocu.decodeFrom_encodeFrom_append (by decide), Option.map_map] at hread
    obtain ⟨cs, -, rfl⟩ := Option.map_eq_some_iff.1 hread
    rw [Function.comp_apply, String.toList_ofList]
    exact List.prefix_append _ _
  | utf8 =>
    apply List.isPrefix_of_utf8Encode_append_eq_utf8Encode rest.toByteArray
    have hbytes := congrArg List.toByteArray hrest
    rw [encode, List.toByteArray_append] at hbytes
    exact hbytes
  | utf16le =>
    rw [decode?, encode, bytesUnits?_unitBytes_append fun u hu => lt_of_mem_units hu] at hread
    obtain ⟨cs, hcs, rfl⟩ := Option.map_eq_some_iff.1 hread
    obtain ⟨us, hus, hcs⟩ := Option.bind_eq_some_iff.1 hcs
    obtain ⟨vs, -, rfl⟩ := Option.map_eq_some_iff.1 hus
    rw [units, Units.decode?_flatMap_ofChar_append] at hcs
    obtain ⟨ds, -, rfl⟩ := Option.map_eq_some_iff.1 hcs
    rw [String.toList_ofList]
    exact List.prefix_append _ _

/-- Beginnings of strings are beginnings of their bytes. -/
theorem encode_prefix_iff {e : Encoding} {s t : String} :
    e.encode s <+: e.encode t ↔ s.toList <+: t.toList := by
  constructor
  · exact prefix_of_encode_prefix
  · exact encode_prefix

end Encoding

/-! ## UTF-8 -/

namespace Utf8

/-- The first byte of a character, which tells how many more there are. -/
def lead (code : Nat) : Nat :=
  if code ≤ 0x7F then code
  else if code ≤ 0x7FF then code / 64 + 0xC0
  else if code ≤ 0xFFFF then code / 4096 + 0xE0
  else code / 262144 + 0xF0

/-- The number of bytes of a character after the first one. -/
def trails (code : Nat) : Nat :=
  if code ≤ 0x7F then 0 else if code ≤ 0x7FF then 1 else if code ≤ 0xFFFF then 2 else 3

/-- The last bytes of a character, with six bits in each. -/
def trailBytes : Nat → Nat → List UInt8
  | 0, _ => []
  | n + 1, code => UInt8.ofNat (code / 64 ^ n % 64 + 0x80) :: trailBytes n code

theorem utf8EncodeChar_eq (c : Char) : String.utf8EncodeChar c =
    UInt8.ofNat (lead c.toNat) :: trailBytes (trails c.toNat) c.toNat := by
  have hc : c.toNat < 0x110000 := Bocu.toNat_lt c
  have hval : c.val.toNat = c.toNat := rfl
  unfold String.utf8EncodeChar lead trails
  dsimp only
  rw [hval]
  -- one case for each number of bytes; the highest bits all fit in the first one
  split_ifs
  · rfl
  · rw [Nat.mod_eq_of_lt (by omega : c.toNat / 64 < 32)]
    simp [trailBytes]
  · rw [Nat.mod_eq_of_lt (by omega : c.toNat / 4096 < 16)]
    simp [trailBytes]
  · rw [Nat.mod_eq_of_lt (by omega : c.toNat / 262144 < 8)]
    simp [trailBytes]

/-- Of two characters the smaller one has the smaller first byte, or both agree in all bits of the
first byte. -/
theorem lead_lt_or_eq {m n : Nat} (hmn : m < n) (hn : n < 0x110000) :
    lead m < lead n ∨
      lead m = lead n ∧ trails m = trails n ∧ m / 64 ^ trails n = n / 64 ^ trails n := by
  unfold lead trails
  split_ifs <;> omega

/-- Of numbers that agree above their trail bytes, the smaller one comes first. -/
theorem before_trailBytes {k m n : Nat} (hmn : m < n) (hhigh : m / 64 ^ k = n / 64 ^ k) :
    Before (trailBytes k m) (trailBytes k n) := by
  induction k with
  | zero =>
    rw [Nat.pow_zero, Nat.div_one, Nat.div_one] at hhigh
    exact absurd hhigh hmn.ne
  | succ k ih =>
    rw [Nat.pow_succ, ← Nat.div_div_eq_div_mul, ← Nat.div_div_eq_div_mul] at hhigh
    apply before_cons_ofNat (by omega)
    -- the highest bits differ, or those after them do
    rcases Nat.lt_or_eq_of_le (Nat.div_le_div_right hmn.le : m / 64 ^ k ≤ n / 64 ^ k) with hlt | heq
    · left
      omega
    · rw [heq]
      exact .inr ⟨rfl, ih heq⟩

/-- The bytes of the smaller of two characters come first. -/
theorem before_utf8EncodeChar {c d : Char} (hcd : c.toNat < d.toNat) :
    Before (String.utf8EncodeChar c) (String.utf8EncodeChar d) := by
  have hd := Bocu.toNat_lt d
  have hbyte : lead d.toNat < 256 := by
    unfold lead
    split_ifs <;> omega
  rw [utf8EncodeChar_eq, utf8EncodeChar_eq]
  apply before_cons_ofNat hbyte
  rcases lead_lt_or_eq hcd hd with hlt | ⟨hlead, htrails, hhigh⟩
  · exact .inl hlt
  · rw [htrails]
    exact .inr ⟨hlead, before_trailBytes hcd hhigh⟩

/-- The bytes of the smaller of two texts come first. -/
theorem flatMap_lt {cs ds : List Char} (h : cs.map Char.toNat < ds.map Char.toNat) :
    cs.flatMap String.utf8EncodeChar < ds.flatMap String.utf8EncodeChar := by
  induction cs generalizing ds with
  | nil =>
    cases ds with
    | nil => exact absurd h (List.lt_irrefl _)
    | cons d ds =>
      apply lt_of_prefix_of_ne List.nil_prefix
      rw [List.flatMap_cons, utf8EncodeChar_eq]
      exact (List.cons_ne_nil _ _).symm
  | cons c cs ih =>
    cases ds with
    | nil => exact absurd h (List.not_lt_nil _)
    | cons d ds =>
      rw [List.flatMap_cons, List.flatMap_cons]
      rcases List.cons_lt_cons_iff.1 h with hlt | ⟨heq, hlt⟩
      · exact (before_utf8EncodeChar hlt).lt _ _
      · rw [Char.toNat_inj.1 heq]
        exact List.append_left_lt (ih hlt)

end Utf8

/-! ## Order -/

/-- The code points of a string. -/
def codePoints (s : String) : List Nat := s.toList.map Char.toNat

theorem codePoints_injective : Function.Injective codePoints := by
  intro s t h
  have hchars := List.map_injective_iff.2 (fun _ _ => Char.toNat_inj.1) h
  exact String.toList_inj.1 hchars

theorem Utf8.compare_flatMap (s t : String) :
    compare (s.toList.flatMap String.utf8EncodeChar) (t.toList.flatMap String.utf8EncodeChar) =
      compare (codePoints s) (codePoints t) := by
  rcases lt_trichotomy (codePoints s) (codePoints t) with hlt | heq | hgt
  · rw [compare_eq_lt_of_lt hlt, compare_eq_lt_of_lt (flatMap_lt hlt)]
  · rw [codePoints_injective heq, Std.compare_self, Std.compare_self]
  · rw [compare_eq_gt_of_lt hgt, compare_eq_gt_of_lt (flatMap_lt hgt)]

namespace Encoding

/-- Two of the encodings keep the order of code points. -/
theorem compare_encode_eq {e : Encoding} (he : e ≠ utf16le) (s t : String) :
    compare (e.encode s) (e.encode t) = compare (codePoints s) (codePoints t) := by
  cases e with
  | bocu1 => exact Bocu.compare_encodeFrom (by decide) s.toList t.toList
  | utf8 => exact Utf8.compare_flatMap s t
  | utf16le => exact absurd rfl he

-- the third encoding does not: the low byte of the greater code point is the smaller one
example : utf16le.encode "Ā" < utf16le.encode "a" := by decide

/-- Strings that come in the order of their bytes come in the order of their code points. -/
theorem codePoints_lt_of_encode_lt {e : Encoding} (he : e ≠ utf16le) {s t : String}
    (h : e.encode s < e.encode t) : codePoints s < codePoints t := by
  have hcompare := compare_encode_eq he s t
  rw [compare_eq_lt_of_lt h] at hcompare
  rcases lt_trichotomy (codePoints s) (codePoints t) with hlt | heq | hgt
  · exact hlt
  · rw [heq, Std.compare_self] at hcompare
    cases hcompare
  · rw [compare_eq_gt_of_lt hgt] at hcompare
    cases hcompare

end Encoding

end Paradigm.Text
