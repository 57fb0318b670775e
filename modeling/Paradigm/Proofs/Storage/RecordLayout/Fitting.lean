import Mathlib
import Paradigm.Proofs.Failure
import Paradigm.Proofs.Storage.RecordLayout

/-!
# Records in fitting layouts

A layout that was fitted to the greatest values has room for all fields up to these.  Fitting fails
only if the widths together are more than a word.

## Main results

* `RecordLayout.failsOnly_fitting`: fitting layouts
* `RecordLayout.exists_encode`: records of fields up to the greatest values
* `RecordLayout.exists_encode_of_mem`: the records that a layout was fitted to
-/

namespace Paradigm

namespace RecordLayout

variable {n : Nat} {names : Vector String n} {l : RecordLayout n}

/-! ## Fitting -/

/-- Widths whose sum is a 32-bit number are refused only for want of room. -/
theorem failsOnly_ofWidths {widths : Vector UInt32 n} (h : span widths.toList < halfLimit) :
    FailsOnly NoRoom (ofWidths names widths) := by
  rw [ofWidths_of_span_lt h]
  split
  · exact .error .layoutTooWide
  · exact .ok _

/-- No value needs more than a word, so that the widths of few fields are added up. -/
theorem span_fitted_lt (hn : 64 * n < halfLimit) (greatest : Vector UInt64 n) :
    span (greatest.map fun value => UInt32.ofNat (bitWidth value)).toList < halfLimit :=
  span_lt hn fun _ => width_le_of_fitted

theorem failsOnly_fitting (hn : 64 * n < halfLimit) (greatest : Vector UInt64 n) :
    FailsOnly NoRoom (fitting names greatest) :=
  failsOnly_ofWidths (span_fitted_lt hn greatest)

theorem failsOnly_fittingAll (hn : 64 * n < halfLimit) (records : List (Vector UInt64 n)) :
    FailsOnly NoRoom (fittingAll names records) :=
  failsOnly_fitting hn _

/-! ## Records -/

/-- Fields up to the greatest values are put into a word of a layout that was fitted to these. -/
theorem exists_encode {greatest fields : Vector UInt64 n} (h : fitting names greatest = .ok l)
    (hle : ∀ i (hi : i < n), fields[i] ≤ greatest[i]) : ∃ raw, l.encode fields = .ok raw := by
  obtain ⟨-, hwidths, hl⟩ := fitting_eq_ok h
  have hfit : ∀ f ∈ l.named fields, f.2.2.toNat < 2 ^ f.2.1.toNat := by
    intro f hf
    obtain ⟨i, hi, rfl⟩ := List.mem_iff_getElem.1 hf
    have hin : i < n := by
      rw [named, List.length_zip, Vector.length_toList] at hi
      omega
    have hwidth : (l.widths[i]).toNat = bitWidth greatest[i] := by
      simp only [hwidths, Vector.getElem_map]
      exact toNat_ofNat_bitWidth _
    simp only [named, List.getElem_zip, Vector.getElem_toList, hwidth]
    exact toNat_lt_bitWidth_of_le (UInt64.le_iff_toNat_le.1 (hle i hin))
  obtain ⟨raw, hraw, -⟩ := exists_encode_eq_digits hl hfit
  exact ⟨raw, hraw⟩

theorem le_max_uint64 (a b : UInt64) : a ≤ max a b ∧ b ≤ max a b := by
  show a ≤ (if a ≤ b then b else a) ∧ b ≤ if a ≤ b then b else a
  split
  · exact ⟨‹_›, UInt64.le_refl b⟩
  · exact ⟨UInt64.le_refl a, UInt64.le_of_lt (UInt64.not_le.1 ‹_›)⟩

/-- No field is greater than the greatest one in its place. -/
theorem le_foldl_max {records : List (Vector UInt64 n)} (first : Vector UInt64 n) {i : Nat}
    (hi : i < n) : first[i] ≤ (records.foldl (Vector.zipWith max) first)[i] ∧
      ∀ r ∈ records, r[i] ≤ (records.foldl (Vector.zipWith max) first)[i] := by
  induction records generalizing first with
  | nil => exact ⟨UInt64.le_refl _, nofun⟩
  | cons r records ih =>
    obtain ⟨hfirst, hrecords⟩ := ih (Vector.zipWith max first r)
    rw [Vector.getElem_zipWith] at hfirst
    obtain ⟨hleft, hright⟩ := le_max_uint64 first[i] r[i]
    rw [List.foldl_cons]
    refine ⟨UInt64.le_trans hleft hfirst, fun r' hr' => ?_⟩
    rcases List.mem_cons.1 hr' with rfl | hr'
    · exact UInt64.le_trans hright hfirst
    · exact hrecords r' hr'

/-- A layout has room for each of the records that it was fitted to. -/
theorem exists_encode_of_mem {records : List (Vector UInt64 n)} {record : Vector UInt64 n}
    (h : fittingAll names records = .ok l) (hmem : record ∈ records) :
    ∃ raw, l.encode record = .ok raw :=
  exists_encode h fun _ hi => (le_foldl_max _ hi).2 record hmem

end RecordLayout

end Paradigm
