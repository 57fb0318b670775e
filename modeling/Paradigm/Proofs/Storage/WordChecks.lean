import Mathlib
import Paradigm.Proofs.Storage.RecordLayout.Fitting

/-!
# Checks against the end of a word

A run of bits must end within its word, and the fields of a record must fit into one.  For both a
sum is compared with 64, and the sum itself must be a 32-bit number.  The checks are exact below
2^32; a run or widths with a greater sum are not refused, but out of range.  Neither a header nor
values to fit lead to such widths, unless there are millions of fields.

## Main results

* `extractBits_eq_error_iff`, `exists_extractBits`: runs that are refused, and those within a word
* `RecordLayout.ofWidths_eq_error_iff`, `RecordLayout.ofWidths_eq_ok_iff`: widths that are refused,
  and those within a word
* `RecordLayout.fitting_eq_error_iff`, `RecordLayout.ofHeader_ne_outOfRange`: layouts whose widths
  are always added up
* `checks_of_sums`: all runs and all widths
-/

namespace Paradigm

/-! ## Runs of bits -/

/-- A run is refused exactly if it ends beyond the word and its end is a 32-bit number. -/
theorem extractBits_eq_error_iff {value : UInt64} {start length : UInt32} :
    extractBits value start length = .error (.illegalRange start.toNat length.toNat) ↔
      wordBits < start.toNat + length.toNat ∧ start.toNat + length.toNat < halfLimit := by
  constructor
  · intro h
    by_contra hnot
    rw [not_and_or, Nat.not_lt, Nat.not_lt] at hnot
    rcases hnot with hword | hsum
    · obtain ⟨run, hrun, -⟩ := @exists_extractBits value start length hword
      rw [hrun] at h
      cases h
    · rw [extractBits_eq_outOfRange hsum] at h
      cases h
  · rintro ⟨hword, hsum⟩
    exact extractBits_eq_illegalRange hword hsum

namespace RecordLayout

variable {n : Nat} {names : Vector String n} {widths : Vector UInt32 n}

/-! ## Widths -/

/-- Widths are refused exactly if they are more than a word together and their sum is a 32-bit
number. -/
theorem ofWidths_eq_error_iff : ofWidths names widths = .error .layoutTooWide ↔
    wordBits < span widths.toList ∧ span widths.toList < halfLimit := by
  rcases Nat.lt_or_ge (span widths.toList) halfLimit with hlt | hge
  · rw [ofWidths_of_span_lt hlt, and_iff_left hlt]
    split
    next h => exact iff_of_true rfl h
    next h => exact iff_of_false nofun h
  · obtain ⟨m, k, h⟩ := @exists_ofWidths_eq_outOfRange n names widths hge
    rw [h]
    exact iff_of_false nofun fun hspan => absurd hspan.2 (Nat.not_lt.2 hge)

/-- Fitting fails exactly if the greatest values need more than a word. -/
theorem fitting_eq_error_iff (hn : 64 * n < halfLimit) {greatest : Vector UInt64 n} :
    fitting names greatest = .error .layoutTooWide ↔
      wordBits < (greatest.toList.map bitWidth).sum := by
  have hspan : span (greatest.map fun value => UInt32.ofNat (bitWidth value)).toList =
      (greatest.toList.map bitWidth).sum := by
    rw [span, Vector.toList_map, List.map_map]
    exact congrArg List.sum (List.map_congr_left fun value _ => toNat_ofNat_bitWidth value)
  rw [fitting, ofWidths_eq_error_iff, and_iff_left (span_fitted_lt hn greatest), hspan]

theorem toNat_le_of_headerWidth {name : String} {width : Int8} {w : UInt32}
    (h : headerWidth name width = .ok w) : w.toNat ≤ 127 := by
  unfold headerWidth at h
  split at h
  · cases h
  · obtain rfl := Except.ok.inj h
    have hle : width.toInt ≤ 127 := width.toInt_le
    rw [UInt32.toNat_ofNat_of_lt' (by rw [UInt32.size]; omega)]
    omega

/-- The widths of a header are always added up. -/
theorem ofHeader_ne_outOfRange (hn : 127 * n < halfLimit) {header : Vector Int8 n}
    (fault : RangeFault) : ofHeader names header ≠ .error (.outOfRange fault) := by
  have hwidth (field : String × Int8) :
      FailsOnly (fun e => ∃ width name, e = .corrupt (.negativeWidth width name))
        (headerWidth field.1 field.2) := by
    unfold headerWidth
    split
    · exact .error ⟨_, _, rfl⟩
    · exact .ok _
  have hwidths : FailsOnly (fun e => e ≠ .outOfRange fault)
      ((names.zip header).mapM fun field => headerWidth field.1 field.2) := by
    intro e he
    have hlist : ((names.zip header).toList.mapM fun field => headerWidth field.1 field.2) =
        .error e := by
      rw [← toList_mapM]
      exact Except.map_eq_error.2 he
    obtain ⟨width, name, rfl⟩ := FailsOnly.mapM (fun field _ => hwidth field) e hlist
    exact nofun
  intro h
  refine absurd rfl (FailsOnly.bind hwidths (fun widths hwidths => ?_) _ h)
  have hlist := congrArg (Functor.map Vector.toList) hwidths
  rw [toList_mapM, Except.map_ok] at hlist
  have hspan : span widths.toList < halfLimit := by
    refine span_lt hn fun w hw => ?_
    obtain ⟨field, -, hfield⟩ := (mem_iff_of_mapM_eq_ok hlist).1 hw
    exact toNat_le_of_headerWidth hfield
  intro e he
  rw [ofWidths_of_span_lt hspan] at he
  split at he
  · cases he
    exact nofun
  · cases he

end RecordLayout

/-! ## The checks -/

/-- **What is checked by 32-bit sums.**  A run of bits is refused exactly if it ends beyond the word
and its end is a 32-bit number; a run within the word is the quotient by the power of two of its
start, modulo that of its length.  The widths of a layout are refused exactly if they are more than
a word together and their sum is a 32-bit number; widths within a word make a layout.  A run or
widths with a greater sum are out of range. -/
theorem checks_of_sums (value : UInt64) (start length : UInt32) {n : Nat}
    (names : Vector String n) (widths : Vector UInt32 n) :
    ((extractBits value start length = .error (.illegalRange start.toNat length.toNat) ↔
        wordBits < start.toNat + length.toNat ∧ start.toNat + length.toNat < halfLimit) ∧
      (start.toNat + length.toNat ≤ wordBits → ∃ run, extractBits value start length = .ok run ∧
        run.toNat = value.toNat / 2 ^ start.toNat % 2 ^ length.toNat) ∧
      (halfLimit ≤ start.toNat + length.toNat → extractBits value start length =
        .error (.outOfRange (.sum start.toNat length.toNat)))) ∧
    (RecordLayout.ofWidths names widths = .error .layoutTooWide ↔
      wordBits < RecordLayout.span widths.toList ∧
        RecordLayout.span widths.toList < halfLimit) ∧
    (∀ l, RecordLayout.ofWidths names widths = .ok l ↔
      RecordLayout.span widths.toList ≤ wordBits ∧ l = ⟨names, widths⟩) ∧
    (halfLimit ≤ RecordLayout.span widths.toList → ∃ m k,
      RecordLayout.ofWidths names widths = .error (.outOfRange (.sum m k))) :=
  ⟨⟨extractBits_eq_error_iff, exists_extractBits, extractBits_eq_outOfRange⟩,
    RecordLayout.ofWidths_eq_error_iff, fun _ => RecordLayout.ofWidths_eq_ok_iff,
    RecordLayout.exists_ofWidths_eq_outOfRange⟩

/-- A run and a layout within a word, a run and a layout beyond it, and a run and a layout out of
range. -/
theorem checks_of_sums_around_word :
    ((∃ run, extractBits 0xB0 4 4 = .ok run ∧ run.toNat = 0xB) ∧
      extractBits 1 60 5 = .error (.illegalRange 60 5) ∧
      extractBits 1 4294967295 2 = .error (.outOfRange (.sum 4294967295 2))) ∧
    RecordLayout.ofWidths #v["count", "kind"] #v[4, 60] =
      .ok ⟨#v["count", "kind"], #v[4, 60]⟩ ∧
    RecordLayout.ofWidths #v["count", "kind"] #v[40, 30] = .error .layoutTooWide ∧
    ∃ m k, RecordLayout.ofWidths #v["count", "kind"] #v[4294967295, 1] =
      .error (.outOfRange (.sum m k)) := by
  obtain ⟨⟨-, hwithin, -⟩, -, hfull, -⟩ := checks_of_sums 0xB0 4 4 #v["count", "kind"] #v[4, 60]
  obtain ⟨⟨hbeyond, -, -⟩, hwide, -, -⟩ := checks_of_sums 1 60 5 #v["count", "kind"] #v[40, 30]
  obtain ⟨⟨-, -, hout⟩, -, -, hsum⟩ :=
    checks_of_sums 1 4294967295 2 #v["count", "kind"] #v[4294967295, 1]
  obtain ⟨run, hrun, hnat⟩ := hwithin (by decide)
  exact ⟨⟨⟨run, hrun, hnat⟩, hbeyond.2 (by decide), hout (by decide)⟩,
    (hfull _).2 ⟨by decide, rfl⟩, hwide.2 (by decide), hsum (by decide)⟩

/-- Two bits from bit 4294967295 on are beyond every word, and so are fields of 4294967295 bits and
one bit; neither is refused. -/
theorem checks_miss_greater_sums :
    (wordBits < (4294967295 : UInt32).toNat + (2 : UInt32).toNat ∧
      extractBits 0x8000000000000000 4294967295 2 ≠ .error (.illegalRange 4294967295 2)) ∧
    wordBits < RecordLayout.span [4294967295, 1] ∧
      RecordLayout.ofWidths #v["count", "kind"] #v[4294967295, 1] ≠ .error .layoutTooWide := by
  decide

end Paradigm
