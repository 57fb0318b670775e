import Mathlib
import Paradigm.Proofs.Text.Encoding

/-!
# The encoding that is selected for keys

BOCU-1 and UTF-16 are selected only where they take fewer bytes than both other encodings.  Whatever
is selected then takes the fewest bytes, unless BOCU-1 and UTF-16 take equally many: neither of them
beats the other, and UTF-8 is selected even if it takes more.  A character takes at most half as
many bytes again in UTF-8 as in UTF-16, which bounds what is lost.

## Main definitions

* `Encoding.storedSize`: the number of bytes that keys take in an encoding

## Main results

* `Encoding.sample_eq_self`: all keys of a small list are measured
* `Encoding.selectSmallest_cases`: when each of the encodings is selected
* `Encoding.storedSize_utf8_le`: UTF-8 against UTF-16
* `Encoding.selectSmallest_storedSize`: the bytes that keys take in the selected encoding
* `Encoding.selectSmallest_largest`: a key for which the selected encoding takes the most bytes
-/

namespace Paradigm.Text.Encoding

variable {keys : List String}

/-- The number of bytes that keys take in an encoding. -/
def storedSize (e : Encoding) (keys : List String) : Nat :=
  (keys.map fun key => (e.encode key).length).sum

@[simp] theorem storedSize_nil (e : Encoding) : e.storedSize [] = 0 := rfl

@[simp] theorem storedSize_cons (e : Encoding) (key : String) (keys : List String) :
    e.storedSize (key :: keys) = (e.encode key).length + e.storedSize keys := rfl

/-! ## Selection -/

/-- The lengths that are told for keys are summed up. -/
theorem totalLength_eq (e : Encoding) (keys : List String) :
    e.totalLength keys = e.storedSize keys := by
  rw [totalLength, storedSize, List.sum_eq_foldl, List.foldl_map]
  simp only [length_encode]

/-- All keys of a small list are measured. -/
theorem sample_eq_self (h : keys.length < 2 ^ 17) : sample keys = keys := by
  have hstep : keys.length >>> 17 + 1 = 1 := by
    rw [Nat.shiftRight_eq_div_pow, Nat.div_eq_of_lt h]
  rw [sample, hstep, everyNth]
  simp [Nat.mod_one]

/-- BOCU-1 and UTF-16 are selected where they are smaller than the others, and UTF-8 where neither
of these is smaller, or both take equally many bytes. -/
theorem selectSmallest_cases (h : keys.length < 2 ^ 17) :
    (selectSmallest keys = bocu1 ∧ bocu1.storedSize keys < utf8.storedSize keys ∧
      bocu1.storedSize keys < utf16le.storedSize keys) ∨
    (selectSmallest keys = utf16le ∧ utf16le.storedSize keys < utf8.storedSize keys ∧
      utf16le.storedSize keys < bocu1.storedSize keys) ∨
    (selectSmallest keys = utf8 ∧
      (bocu1.storedSize keys = utf16le.storedSize keys ∨
        utf8.storedSize keys ≤ bocu1.storedSize keys ∧
          utf8.storedSize keys ≤ utf16le.storedSize keys)) := by
  simp only [selectSmallest, sample_eq_self h, totalLength_eq]
  split_ifs with hbocu1 hutf16le
  · exact .inl ⟨rfl, hbocu1⟩
  · exact .inr (.inl ⟨rfl, hutf16le⟩)
  · exact .inr (.inr ⟨rfl, by omega⟩)

/-! ## UTF-8 and UTF-16 -/

/-- A character takes at most half as many bytes again in UTF-8 as in UTF-16: three against two, or
four against four. -/
theorem length_utf8EncodeChar_le (c : Char) :
    2 * (String.utf8EncodeChar c).length ≤ 3 * ((Units.ofChar c).length * 2) := by
  rw [String.length_utf8EncodeChar, Units.ofChar]
  have hfour := c.utf8Size_le_four
  split
  · rename_i hc
    have hthree : c.utf8Size ≤ 3 := by
      have hval : c.val ≤ 65535 := UInt32.le_iff_toNat_le.2 (Nat.le_of_lt_succ hc)
      unfold Char.utf8Size
      dsimp only
      split_ifs with hone htwo hthree
      · decide
      · decide
      · exact Nat.le_refl 3
      · exact absurd hval hthree
    simp only [List.length_cons, List.length_nil]
    omega
  · simp only [List.length_cons, List.length_nil]
    omega

theorem length_encode_utf8_le (s : String) :
    2 * (utf8.encode s).length ≤ 3 * (utf16le.encode s).length := by
  rw [encode, encode, length_flatMap_unitBytes, units]
  induction s.toList with
  | nil => exact Nat.le_refl 0
  | cons c cs ih =>
    have hc := length_utf8EncodeChar_le c
    simp only [List.flatMap_cons, List.length_append]
    omega

theorem storedSize_utf8_le (keys : List String) :
    2 * utf8.storedSize keys ≤ 3 * utf16le.storedSize keys := by
  induction keys with
  | nil => exact Nat.le_refl 0
  | cons key keys ih =>
    have hkey := length_encode_utf8_le key
    simp only [storedSize_cons]
    omega

/-! ## The selected encoding -/

/-- **The encoding that is selected for fewer than 2^17 keys** takes the fewest bytes if BOCU-1 and
UTF-16 differ in the bytes that they take.  If they do not, UTF-8 is selected.  It takes more bytes
than either of the others exactly if it is beaten by a tie of these, and never takes more than half
as many again as any. -/
theorem selectSmallest_storedSize (h : keys.length < 2 ^ 17) :
    (bocu1.storedSize keys ≠ utf16le.storedSize keys →
      ∀ e : Encoding, (selectSmallest keys).storedSize keys ≤ e.storedSize keys) ∧
    (bocu1.storedSize keys = utf16le.storedSize keys → selectSmallest keys = utf8) ∧
    ((∀ e : Encoding, e ≠ selectSmallest keys →
        e.storedSize keys < (selectSmallest keys).storedSize keys) ↔
      bocu1.storedSize keys = utf16le.storedSize keys ∧
        bocu1.storedSize keys < utf8.storedSize keys) ∧
    ∀ e : Encoding, 2 * (selectSmallest keys).storedSize keys ≤ 3 * e.storedSize keys := by
  have hbound := storedSize_utf8_le keys
  have hall {p : Encoding → Prop} : (∀ e, p e) ↔ p bocu1 ∧ p utf8 ∧ p utf16le :=
    ⟨fun h => ⟨h _, h _, h _⟩, fun ⟨hb, hu, hw⟩ e => by cases e <;> assumption⟩
  simp only [hall]
  rcases selectSmallest_cases h with ⟨he, hless⟩ | ⟨he, hless⟩ | ⟨he, hless⟩
  all_goals
    simp only [he, ne_eq, reduceCtorEq, not_true, not_false_eq_true, true_implies, false_implies,
      implies_true, true_and, and_true, imp_false]
    omega

theorem selectSmallest_storedSize_cyrillic :
    ["кошка", "кошки"].length < 2 ^ 17 ∧
      bocu1.storedSize ["кошка", "кошки"] ≠ utf16le.storedSize ["кошка", "кошки"] ∧
      ∀ e : Encoding, (selectSmallest ["кошка", "кошки"]).storedSize ["кошка", "кошки"] ≤
        e.storedSize ["кошка", "кошки"] := by
  have hfew : ["кошка", "кошки"].length < 2 ^ 17 := by decide
  have hdiffer : bocu1.storedSize ["кошка", "кошки"] ≠ utf16le.storedSize ["кошка", "кошки"] := by
    decide
  exact ⟨hfew, hdiffer, (selectSmallest_storedSize hfew).1 hdiffer⟩

/-- For a letter of a small script that is written in three bytes of UTF-8, UTF-8 is selected,
although both other encodings take two. -/
theorem selectSmallest_largest : ["न"].length < 2 ^ 17 ∧ selectSmallest ["न"] = utf8 ∧
    bocu1.storedSize ["न"] < utf8.storedSize ["न"] ∧
    utf16le.storedSize ["न"] < utf8.storedSize ["न"] := by
  decide

end Paradigm.Text.Encoding
