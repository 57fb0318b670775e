import Mathlib
import Paradigm.Proofs.Storage.RecordLayout.Fitting

/-!
# Records and their fields

Under a layout within a word, the records below the limit of the widths together are in one-to-one
correspondence with the rows of fields that fit their widths.  Putting together refuses any other
row, for the first field that does not fit; taking apart refuses nothing, and forgets the bits above
the layout.

## Main definitions

* `RecordLayout.Fits`: a field is below the limit of its width

## Main results

* `RecordLayout.encode_of_fits`: the record of fields that fit
* `RecordLayout.encode_of_misfit`: the first field that does not fit is refused
* `RecordLayout.exists_decode`: every word is taken apart into fields that fit
* `RecordLayout.encode_and_decode`: all laws of a layout within a word
-/

namespace Paradigm

namespace RecordLayout

variable {n : Nat} {l : RecordLayout n} {fields : Vector UInt64 n}

/-! ## Lists of fields -/

/-- A field that is too great is refused, if those before it fit. -/
theorem encodeFields_eq_error {before after : List (String × UInt32 × UInt64)} {name : String}
    {width : UInt32} {value : UInt64} {shift : Nat}
    (hspan : shift + span (before.map (·.2.1)) ≤ 64)
    (hbefore : ∀ f ∈ before, f.2.2.toNat < 2 ^ f.2.1.toNat) (hwidth : width.toNat ≤ 64)
    (hvalue : ¬ value.toNat < 2 ^ width.toNat) :
    encodeFields shift (before ++ (name, width, value) :: after) =
      .error (.fieldOverflow name value width.toNat) := by
  induction before generalizing shift with
  | nil => exact encodeFields_cons_eq_error after hwidth hvalue
  | cons f before ih =>
    obtain ⟨name', width', value'⟩ := f
    rw [List.map_cons, span_cons, ← Nat.add_assoc] at hspan
    have hv : value'.toNat < 2 ^ width'.toNat := hbefore (name', width', value') List.mem_cons_self
    have hend : shift + width'.toNat ≤ 64 := (Nat.le_add_right _ _).trans hspan
    obtain ⟨low, hlow, -⟩ := placed_eq_ok hend hv
    rw [List.cons_append, encodeFields_cons _ hend hv hlow,
      ih hspan fun f hf => hbefore f (List.mem_cons_of_mem _ hf)]
    rfl

/-- Every word is taken apart into fields that fit their widths, and their number is the word
without the bits above the layout. -/
theorem exists_run_mapM_takeField {names : List String} {widths : List UInt32}
    (hnames : names.length = widths.length) (hspan : span widths ≤ 64) (raw : UInt64) :
    ∃ values rest, (widths.mapM takeField).run raw = .ok (values, rest) ∧
      values.length = widths.length ∧
      (∀ f ∈ names.zip (widths.zip values), f.2.2.toNat < 2 ^ f.2.1.toNat) ∧
      digits (names.zip (widths.zip values)) = raw.toNat % 2 ^ span widths := by
  induction widths generalizing names raw with
  | nil => exact ⟨[], raw, rfl, rfl, by simp, by simp [digits, Nat.mod_one]⟩
  | cons width widths ih =>
    obtain ⟨name, names, rfl⟩ := List.exists_cons_of_length_eq_add_one hnames
    simp only [List.length_cons, Nat.add_right_cancel_iff] at hnames
    rw [span_cons] at hspan
    have hlow : (UInt64.ofNat (raw.toNat % 2 ^ width.toNat)).toNat = raw.toNat % 2 ^ width.toNat :=
      UInt64.toNat_ofNat_of_lt' ((Nat.mod_le _ _).trans_lt raw.toNat_lt)
    have hhigh : (UInt64.ofNat (raw.toNat / 2 ^ width.toNat)).toNat = raw.toNat / 2 ^ width.toNat :=
      UInt64.toNat_ofNat_of_lt' ((Nat.div_le_self _ _).trans_lt raw.toNat_lt)
    obtain ⟨values, rest, hrun, hlength, hfit, hdigits⟩ :=
      ih hnames (by omega) (UInt64.ofNat (raw.toNat / 2 ^ width.toNat))
    refine ⟨UInt64.ofNat (raw.toNat % 2 ^ width.toNat) :: values, rest, ?_, ?_, ?_, ?_⟩
    · rw [List.mapM_cons, StateT.run_bind, run_takeField (by omega), Except.ok_bind,
        StateT.run_bind, hrun]
      rfl
    · rw [List.length_cons, List.length_cons, hlength]
    · rw [List.zip_cons_cons, List.zip_cons_cons, List.forall_mem_cons]
      refine ⟨?_, hfit⟩
      rw [hlow]
      exact Nat.mod_lt _ (Nat.two_pow_pos _)
    · rw [List.zip_cons_cons, List.zip_cons_cons, digits, hdigits, hlow, hhigh, span_cons,
        Nat.pow_add, Nat.mod_mul]

/-- The first widths of a layout take no more than all of them. -/
theorem span_take_le (widths : List UInt32) (i : Nat) : span (widths.take i) ≤ span widths := by
  induction widths generalizing i with
  | nil => simp
  | cons w ws ih =>
    cases i with
    | zero => simp
    | succ i => simpa using ih i

/-! ## Fields that fit -/

/-- The field at a place is below the limit of its width. -/
def Fits (l : RecordLayout n) (fields : Vector UInt64 n) (i : Fin n) : Prop :=
  fields[i].toNat < 2 ^ l.widths[i].toNat

instance (l : RecordLayout n) (fields : Vector UInt64 n) (i : Fin n) :
    Decidable (l.Fits fields i) :=
  inferInstanceAs (Decidable (fields[i].toNat < 2 ^ l.widths[i].toNat))

@[simp] theorem length_named (l : RecordLayout n) (fields : Vector UInt64 n) :
    (l.named fields).length = n := by
  simp [named]

theorem getElem?_named (l : RecordLayout n) (fields : Vector UInt64 n) (i : Fin n) :
    (l.named fields)[i.val]? = some (l.names[i], l.widths[i], fields[i]) := by
  simp [named]

/-- What holds of all fields holds at every place. -/
theorem forall_mem_named_iff {p : String × UInt32 × UInt64 → Prop} :
    (∀ f ∈ l.named fields, p f) ↔ ∀ i : Fin n, p (l.names[i], l.widths[i], fields[i]) := by
  constructor
  · intro h i
    exact h _ (List.mem_of_getElem? (getElem?_named l fields i))
  · intro h f hf
    obtain ⟨i, hi⟩ := List.mem_iff_getElem?.1 hf
    have hin : i < n := by simpa using (List.getElem?_eq_some_iff.1 hi).1
    obtain rfl := Option.some.inj ((getElem?_named l fields ⟨i, hin⟩).symm.trans hi)
    exact h ⟨i, hin⟩

/-- The record of fields that fit is their number. -/
theorem encode_of_fits (hl : l.WithinWord) (h : ∀ i, l.Fits fields i) :
    ∃ raw, l.encode fields = .ok raw ∧ raw.toNat = digits (l.named fields) :=
  exists_encode_eq_digits hl (forall_mem_named_iff.2 h)

theorem exists_encode_iff (hl : l.WithinWord) :
    (∃ raw, l.encode fields = .ok raw) ↔ ∀ i, l.Fits fields i := by
  constructor
  · rintro ⟨raw, hraw⟩
    exact forall_mem_named_iff.1 (encode_eq_ok hl hraw).1
  · intro h
    obtain ⟨raw, hraw, -⟩ := encode_of_fits hl h
    exact ⟨raw, hraw⟩

/-- The first field that does not fit is refused. -/
theorem encode_of_misfit (hl : l.WithinWord) {i : Fin n} (hi : ¬ l.Fits fields i)
    (hbefore : ∀ j < i, l.Fits fields j) :
    l.encode fields = .error (.fieldOverflow l.names[i] fields[i] l.widths[i].toNat) := by
  obtain ⟨hlt, hget⟩ := List.getElem?_eq_some_iff.1 (getElem?_named l fields i)
  -- the fields before the place, the one there and the others
  have hsplit : l.named fields = (l.named fields).take i.val ++
      (l.names[i], l.widths[i], fields[i]) :: (l.named fields).drop (i.val + 1) := by
    rw [← hget, List.getElem_cons_drop, List.take_append_drop]
  show encodeFields 0 (l.named fields) = _
  rw [hsplit]
  have hspan : 0 + span (((l.named fields).take i.val).map (·.2.1)) ≤ 64 := by
    rw [List.map_take, map_width_named, Nat.zero_add]
    exact (span_take_le _ _).trans hl
  apply encodeFields_eq_error hspan _ (hl.width_le i.isLt) hi
  intro f hf
  obtain ⟨j, hj⟩ := List.mem_iff_getElem?.1 hf
  have hji : j < i.val := by
    have := (List.getElem?_eq_some_iff.1 hj).1
    rw [List.length_take] at this
    omega
  rw [List.getElem?_take_of_lt hji, getElem?_named l fields ⟨j, hji.trans i.isLt⟩] at hj
  obtain rfl := Option.some.inj hj
  exact hbefore ⟨j, hji.trans i.isLt⟩ hji

/-- Every word is taken apart into fields that fit, whose record is the word without the bits above
the layout. -/
theorem exists_decode (hl : l.WithinWord) (raw : UInt64) : ∃ fields, l.decode raw = .ok fields ∧
    (∀ i, l.Fits fields i) ∧ digits (l.named fields) = raw.toNat % 2 ^ span l.widths.toList := by
  have hnames : l.names.toList.length = l.widths.toList.length := by simp
  obtain ⟨values, rest, hrun, hlength, hfit, hdigits⟩ := exists_run_mapM_takeField hnames hl raw
  have hsize : values.toArray.size = n := by simpa using hlength
  refine ⟨⟨values.toArray, hsize⟩, decode_eq_ok_iff.2 ⟨rest, hrun⟩, ?_, ?_⟩
  · exact (forall_mem_named_iff (p := fun f => f.2.2.toNat < 2 ^ f.2.1.toNat)).1 hfit
  · exact hdigits

/-! ## The laws of layouts -/

/-- **Records and fields under a layout within a word.**  The layout is accepted, and so is its
header.  Fields are put together exactly if each fits its width; otherwise the first one that does
not is refused.  Taking apart undoes putting together.  Every word is taken apart, and put together
again it is the word modulo the limit of the layout.  If the layout was fitted to greatest values,
then all fields up to these are put together. -/
theorem encode_and_decode (l : RecordLayout n) (hl : l.WithinWord) :
    (ofWidths l.names l.widths = .ok l ∧ ofHeader l.names l.headerWidths = .ok l) ∧
    (∀ fields, (∃ raw, l.encode fields = .ok raw) ↔ ∀ i, l.Fits fields i) ∧
    (∀ fields i, ¬ l.Fits fields i → (∀ j < i, l.Fits fields j) →
      l.encode fields = .error (.fieldOverflow l.names[i] fields[i] l.widths[i].toNat)) ∧
    (∀ fields raw, l.encode fields = .ok raw → l.decode raw = .ok fields) ∧
    (∃ total, l.totalWidth = .ok total ∧ total = span l.widths.toList ∧
      ∀ raw, ∃ fields raw', l.decode raw = .ok fields ∧ l.encode fields = .ok raw' ∧
        raw'.toNat = raw.toNat % 2 ^ total) ∧
    ∀ names greatest, fitting names greatest = .ok l →
      ∀ fields : Vector UInt64 n, (∀ i : Fin n, fields[i] ≤ greatest[i]) →
        ∃ raw, l.encode fields = .ok raw := by
  refine ⟨⟨ofWidths_of_withinWord hl, ofHeader_headerWidths hl⟩,
    fun fields => exists_encode_iff hl, fun fields i => encode_of_misfit hl,
    fun fields raw => decode_of_encode hl, ⟨_, totalWidth_eq_ok hl, rfl, ?_⟩, ?_⟩
  · intro raw
    obtain ⟨fields, hdecode, hfits, hdigits⟩ := exists_decode hl raw
    obtain ⟨raw', hencode, hraw'⟩ := encode_of_fits hl hfits
    exact ⟨fields, raw', hdecode, hencode, hraw'.trans hdigits⟩
  · intro names greatest hfitting fields hle
    exact exists_encode hfitting fun i hi => hle ⟨i, hi⟩

/-- A layout that fills a word, with a field of no bits. -/
def fullWord : RecordLayout 3 := ⟨#v["count", "offset", "kind"], #v[4, 0, 60]⟩

/-- A layout that was fitted to the values 15, 0 and 600. -/
def fittedWord : RecordLayout 3 := ⟨#v["count", "offset", "kind"], #v[4, 1, 10]⟩

/-- In a full word a field of no bits holds zero alone; a fitted layout has room for fields up to
the greatest ones. -/
theorem encode_and_decode_fullWord :
    fullWord.WithinWord ∧ fittedWord.WithinWord ∧
      ofHeader fullWord.names fullWord.headerWidths = .ok fullWord ∧
      (∃ raw, fullWord.encode #v[9, 0, 0xFFFFFFFFFFFFFFF] = .ok raw ∧
        fullWord.decode raw = .ok #v[9, 0, 0xFFFFFFFFFFFFFFF]) ∧
      fullWord.encode #v[9, 1, 0x1000000000000000] = .error (.fieldOverflow "offset" 1 0) ∧
      (∃ fields raw', fittedWord.decode 0xFFFF = .ok fields ∧ fittedWord.encode fields = .ok raw' ∧
        raw'.toNat = 0x7FFF) ∧
      fitting fittedWord.names #v[15, 0, 600] = .ok fittedWord ∧
      ∃ raw, fittedWord.encode #v[7, 0, 600] = .ok raw := by
  have hfull : fullWord.WithinWord := show span fullWord.widths.toList ≤ 64 by decide
  have hfitted : fittedWord.WithinWord := show span fittedWord.widths.toList ≤ 64 by decide
  obtain ⟨⟨-, hheader⟩, hencode, hmisfit, hdecode, -, -⟩ := encode_and_decode fullWord hfull
  obtain ⟨-, -, -, -, ⟨total, -, rfl, hword⟩, hfitting⟩ := encode_and_decode fittedWord hfitted
  have hfit : fitting fittedWord.names #v[15, 0, 600] = .ok fittedWord := by
    decide +kernel
  obtain ⟨raw, hraw⟩ := (hencode #v[9, 0, 0xFFFFFFFFFFFFFFF]).2 (by decide)
  exact ⟨hfull, hfitted, hheader, ⟨raw, hraw, hdecode _ raw hraw⟩,
    hmisfit #v[9, 1, 0x1000000000000000] 1 (by decide) (by decide), hword 0xFFFF, hfit,
    hfitting _ _ hfit _ (by decide)⟩

end RecordLayout

end Paradigm
