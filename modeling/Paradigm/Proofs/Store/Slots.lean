import Mathlib
import Paradigm.Proofs.Storage.RecordLayout
import Paradigm.Store.Patterns.Building

/-!
# Records in slots of 32 bits

Property maps and the index by suffixes keep their records in slots of 32 bits.  A layout is
accepted for them only if no record takes more, so that nothing of a record is lost.

## Main results

* `span_le_of_checkSlotWidth`: an accepted layout fits a slot
* `decode_of_encodeSlots`: records in slots are taken apart into their fields
-/

namespace Paradigm

theorem toUInt64_toInt32 {raw : UInt64} (h : raw.toNat < 2 ^ 32) :
    raw.toUInt32.toInt32.toUInt32.toUInt64 = raw := by
  apply UInt64.toNat_inj.1
  rw [UInt32.toUInt32_toInt32, UInt32.toNat_toUInt64, UInt64.toNat_toUInt32, Nat.mod_eq_of_lt h]

theorem toNat_toUInt32_ofNat {n : Nat} (h : n < 2 ^ 32) :
    (Int32.ofNat n).toUInt32.toNat = n := by
  rw [Int32.toUInt32_ofNat', UInt32.toNat_ofNat_of_lt' h]

/-- A layout within a word is refused for slots if it takes more than a slot. -/
theorem checkSlotWidth_eq (what : String) {n : Nat} {layout : RecordLayout n}
    (hl : layout.WithinWord) :
    checkSlotWidth what layout = if maxSlotWidth < RecordLayout.span layout.widths.toList then
      .error (.invalidLexicon
        (.slotTooWide what (RecordLayout.span layout.widths.toList) maxSlotWidth))
      else .ok () := by
  rw [checkSlotWidth, RecordLayout.totalWidth_eq_ok hl]
  rfl

/-- A layout within a word that was accepted for slots takes no more than a slot. -/
theorem span_le_of_checkSlotWidth {what : String} {n : Nat} {layout : RecordLayout n} {u : Unit}
    (hl : layout.WithinWord) (h : checkSlotWidth what layout = .ok u) :
    RecordLayout.span layout.widths.toList ≤ 32 := by
  rw [checkSlotWidth_eq what hl] at h
  split at h
  · cases h
  · rename_i hwidth
    exact Nat.not_lt.1 hwidth

/-- Records in slots are taken apart into their fields. -/
theorem decode_of_encodeSlots {n : Nat} {layout : RecordLayout n}
    {records : List (Vector UInt64 n)} {slots : List Int32}
    (hspan : RecordLayout.span layout.widths.toList ≤ 32)
    (h : encodeSlots layout records = .ok slots) :
    List.Forall₂ (fun record slot => layout.decode slot.toUInt32.toUInt64 = .ok record) records
      slots := by
  have hwithin : layout.WithinWord := hspan.trans (by decide)
  -- the word of a record has no more than 32 bits, so nothing of it is lost in a slot
  obtain ⟨raws, hraws, h⟩ := Except.bind_eq_ok.1 h
  obtain rfl := Except.ok.inj h
  rw [List.forall₂_map_right_iff]
  refine (mapM_eq_ok_iff.1 hraws).imp ?_
  intro record raw hraw
  have hlt := RecordLayout.lt_of_encode hwithin hraw
  rw [toUInt64_toInt32 (hlt.trans_le (Nat.pow_le_pow_right (by decide) hspan))]
  exact RecordLayout.decode_of_encode hwithin hraw

end Paradigm
