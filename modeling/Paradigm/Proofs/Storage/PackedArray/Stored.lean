import Mathlib
import Paradigm.Proofs.Storage.PackedArray.History

/-!
# Stored arrays

The stored form of an array has the number of its words and the width of its values, but not how
many values there are.  An array that is read has as many values as its words allow: those that were
stored, and zeros behind them.

## Main definitions

* `PackedArray.unionBits`: the bits that are set in one of the values of a list
* `PackedArray.wordsFor`: the number of words of an array

## Main results

* `PackedArray.size_words_ofList`: the number of words that a list takes
* `PackedArray.holds_mappedForm_ofList`: the values of an array that is read
* `PackedArray.read_write_ofList`: what becomes of a list that is stored
-/

namespace Paradigm

theorem FixedInt.toNat_toWord_eq {α : Type} [FixedInt α] (v : α) :
    (FixedInt.toWord v).toNat = (FixedInt.toInt v % 2 ^ 64).toNat := by
  have h := FixedInt.toNat_toWord v
  have hlimit : ((byteLimit 8 : Nat) : Int) = 2 ^ 64 := by decide
  rw [hlimit] at h
  omega

namespace PackedArray

variable {α : Type}

/-! ## Widths -/

section Widths

variable [FixedInt α]

/-- The bits that are set in one of the values, when these are extended by their signs to 64 bits;
as a number. -/
def unionBits (values : List α) : Nat :=
  values.foldr (fun v n => (FixedInt.toInt v % 2 ^ 64).toNat ||| n) 0

theorem toNat_foldl_or (word : UInt64) (values : List α) :
    (values.foldl (fun word v => word ||| FixedInt.toWord v) word).toNat =
      word.toNat ||| unionBits values := by
  induction values generalizing word with
  | nil => simp [unionBits]
  | cons v vs ih =>
    rw [List.foldl_cons, ih, UInt64.toNat_or, FixedInt.toNat_toWord_eq, Nat.or_assoc]
    rfl

/-- The width of a list is the number of bits up to the highest that is set in a value. -/
theorem widthOf_eq (values : List α) : widthOf values = max 1 (unionBits values).size := by
  rw [widthOf, bitWidth_eq_size, toNat_foldl_or]
  simp

end Widths

/-! ## Words -/

/-- The number of words that a number of values of a width take. -/
def wordsFor (length width : Nat) : Nat := (length * width) ⌈/⌉ wordBits

theorem wordsFor_le {length width : Nat} (h : width ≤ wordBits) :
    wordsFor length width ≤ length := by
  rw [wordsFor, ceilDiv_le_iff_le_mul (by decide), Nat.mul_comm wordBits]
  exact Nat.mul_le_mul_left length h

theorem length_mappedForm {a : PackedArray α} {length : Nat}
    (h : a.words.size = wordsFor length a.width) :
    a.mappedForm.length = wordBits * wordsFor length a.width / a.width := by
  show a.words.size * wordBits / a.width = _
  rw [h, Nat.mul_comm]

theorem exists_write {a : PackedArray α} (h : a.words.size < countLimit) (out : Writer) :
    ∃ out', a.write out = .ok out' := by
  have hcount : out.putCount a.words.size = .ok (out.put (Int32.ofNat a.words.size)) := if_pos h
  rw [write, hcount]
  exact ⟨_, rfl⟩

variable [FixedInt α]

theorem size_words_set {a b : PackedArray α} {index : Nat} {v : α}
    (h : set index v a = .ok () b) : b.words.size = a.words.size := by
  rw [set_apply] at h
  split at h
  · cases h
  split at h
  · cases h
  split at h
  · cases h
  · obtain ⟨-, rfl⟩ := EStateM.Result.ok.inj h
    exact size_withBits a index _

theorem size_words_setAll {a b : PackedArray α} {index : Nat} {values : List α}
    (h : setAll index values a = .ok () b) : b.words.size = a.words.size := by
  induction values generalizing a index with
  | nil =>
    obtain ⟨-, rfl⟩ := EStateM.Result.ok.inj h
    rfl
  | cons v vs ih =>
    cases hset : set index v a with
    | ok u c =>
      rw [setAll_cons hset] at h
      rw [ih h, size_words_set hset]
    | error e c =>
      simp [setAll, bind, EStateM.bind, hset] at h

/-- An array built from a list has as many words as the values take. -/
theorem size_words_ofList {a : PackedArray α} {values : List α} (h : ofList values = .ok a) :
    a.words.size = wordsFor values.length a.width := by
  obtain ⟨z, hz, hset⟩ := ofList_eq_ok_iff.1 h
  obtain ⟨-, -, -, -, -, hwords⟩ := zeros_eq_ok hz
  rw [size_words_setAll hset, hwords, Array.size_replicate, (ofList_eq_ok h).1]
  rfl

/-! ## Arrays that are read -/

theorem Holds.toList_eq {a : PackedArray α} {values : List α} (h : a.Holds values)
    (hlength : a.length = values.length) : a.toList = values := by
  refine List.ext_getElem (by simp [toList, hlength]) fun i hi hi' => ?_
  have hget := h i hi'
  rw [get, if_pos (by omega)] at hget
  rw [← Except.ok.inj hget]
  simp [toList]

/-- What is read from the stored form of a list are the values of the list and zeros behind them. -/
theorem holds_mappedForm_ofList {a : PackedArray α} {values : List α} (h : ofList values = .ok a)
    (hlength : values.length ≤ a.mappedForm.length) :
    a.mappedForm.Holds (values ++
      List.replicate (a.mappedForm.length - values.length) (FixedInt.ofNat 0)) := by
  obtain ⟨-, -, -, hbits⟩ := ofList_eq_ok h
  intro i hi
  have hin : i < a.mappedForm.length := by
    rw [List.length_append, List.length_replicate] at hi
    omega
  rw [get, if_pos hin, show a.mappedForm.bits i = a.bits i from rfl, hbits]
  by_cases hvalue : i < values.length
  · rw [List.getElem?_eq_getElem hvalue, List.getElem_append_left hvalue, Option.elim_some,
      ofNat_toNat_toWord]
  · rw [List.getElem?_eq_none (by omega), List.getElem_append_right (by omega),
      List.getElem_replicate, Option.elim_none]

/-- An array that was read cannot be written to. -/
theorem exists_set_mapped_eq_error {a : PackedArray α} (hmapped : a.mapped = true) (c : Call α) :
    ∃ e, set c.index c.value a = .error e a ∧
      (c.Accepted a.width a.length → e = .readOnly) := by
  by_cases haccepted : c.Accepted a.width a.length
  · refine ⟨.readOnly, ?_, fun _ => rfl⟩
    obtain ⟨hindex, hvalue⟩ := haccepted
    rw [set_apply, bitLimit_eq, if_neg (Nat.not_le_of_lt hvalue),
      if_neg (Nat.not_le_of_lt hindex), if_pos hmapped]
  · obtain ⟨e, he⟩ := exists_set_eq_error haccepted
    exact ⟨e, he, fun h => absurd h haccepted⟩

theorem afterCalls_mapped {a : PackedArray α} (hmapped : a.mapped = true) (calls : List (Call α)) :
    a.afterCalls calls = a := by
  induction calls with
  | nil => rfl
  | cons c calls ih =>
    obtain ⟨e, he, -⟩ := exists_set_mapped_eq_error hmapped c
    have hcall : a.afterCall c = a := by rw [afterCall, he]
    rw [afterCalls, List.foldl_cons, hcall]
    exact ih

/-- **What is stored of a list comes back, with zeros behind it.**  An array in memory has the least
width in which all bits of its values have room, and it gives back its values.  Its stored form is
read from any place as an array of the same width with all values that its words have room for:
those of the list, and zeros.  That array is stored as the first was, and it is not changed by any
calls, all of which fail. -/
theorem read_write_ofList (k : IntKind) {values : List k.Carrier} (h : values.length < 2 ^ 31) :
    ∃ a : PackedArray k.Carrier, ofList values = .ok a ∧
      a.width = max 1 (unionBits values).size ∧ a.toList = values ∧
      a.length = values.length ∧ a.run 0 a.length = .ok values ∧
      ∀ out : Writer, ∃ out' r, a.write out = .ok out' ∧
        ReadsBack out out' (read k.Carrier) r ∧ r.width = a.width ∧
        r.length = 64 * ((values.length * a.width) ⌈/⌉ 64) / a.width ∧
        values.length ≤ r.length ∧
        (∃ zero, FixedInt.toInt zero = 0 ∧ r.run 0 r.length =
          .ok (values ++ List.replicate (r.length - values.length) zero)) ∧
        (∀ other, r.write other = a.write other) ∧
        (∀ c : Call k.Carrier, ∃ e, set c.index c.value r = .error e r ∧
          (c.Accepted r.width r.length → e = .readOnly)) ∧
        ∀ calls, r.afterCalls calls = r := by
  have haddress : values.length * wordBits < addressLimit := by
    rw [addressLimit, wordBits]
    omega
  obtain ⟨a, ha⟩ := exists_ofList haddress
  obtain ⟨hwidth, hlength, -, -⟩ := ofList_eq_ok ha
  have hwords := size_words_ofList ha
  have hholds := holds_ofList ha
  have hrun : a.run 0 a.length = .ok values := by
    rw [hlength, hholds.run (by omega), List.drop_zero, List.take_length]
  refine ⟨a, ha, hwidth.trans (widthOf_eq values), hholds.toList_eq hlength, hlength, hrun,
    fun out => ?_⟩
  have hcount : a.words.size < countLimit := by
    have hle : wordsFor values.length a.width ≤ values.length := wordsFor_le a.width_le
    rw [countLimit]
    omega
  obtain ⟨out', hout⟩ := exists_write hcount out
  have hlong : values.length ≤ a.mappedForm.length := hlength ▸ a.length_le_mappedForm
  have hall := holds_mappedForm_ofList ha hlong
  refine ⟨out', a.mappedForm, hout, readsBack_write hout, rfl, length_mappedForm hwords,
    hlong, ⟨FixedInt.ofNat 0, FixedInt.toInt_ofNat_zero k, ?_⟩, fun _ => rfl,
    exists_set_mapped_eq_error rfl, afterCalls_mapped rfl⟩
  have hpadded : (values ++ List.replicate (a.mappedForm.length - values.length)
      (FixedInt.ofNat 0 : k.Carrier)).length = a.mappedForm.length := by
    rw [List.length_append, List.length_replicate]
    omega
  rw [hall.run (by omega), List.drop_zero, List.take_of_length_le hpadded.le]

theorem read_write_ofList_signed :
    [(3 : Int8), -1, 0].length < 2 ^ 31 ∧ [(5 : UInt16), 3, 4].length < 2 ^ 31 ∧
      (∃ a : PackedArray Int8, ofList [3, -1, 0] = .ok a ∧ a.width = 64) ∧
      ∃ (a r : PackedArray UInt16) (out' : Writer), ofList [5, 3, 4] = .ok a ∧
        a.write .empty = .ok out' ∧ (read UInt16).run out'.toView = .ok r ∧ r.width = 3 ∧
        r.length = 21 ∧ r.run 0 21 = .ok ([5, 3, 4] ++ List.replicate 18 0) := by
  have hsigned : [(3 : Int8), -1, 0].length < 2 ^ 31 := by decide
  have hshort : [(5 : UInt16), 3, 4].length < 2 ^ 31 := by decide
  obtain ⟨a, ha, hawidth, -⟩ := read_write_ofList .int8 hsigned
  obtain ⟨b, hb, hbwidth, -, -, -, hstored⟩ := read_write_ofList .uint16 hshort
  obtain ⟨out', r, hout, hread, hrwidth, hrlength, -, ⟨zero, hzero, hrun⟩, -⟩ := hstored .empty
  have hbwidth' : b.width = 3 := hbwidth.trans (by decide)
  have hrlength' : r.length = 21 := by
    rw [hrlength, hbwidth']
    decide
  refine ⟨hsigned, hshort, ⟨a, ha, hawidth.trans (by decide)⟩, b, r, out', hb, hout, hread.run,
    hrwidth.trans hbwidth', hrlength', ?_⟩
  obtain rfl : zero = (0 : UInt16) := UInt16.toNat_inj.1 (Int.ofNat_inj.1 hzero)
  rw [hrlength'] at hrun
  exact hrun

end PackedArray

end Paradigm
