import Mathlib
import Paradigm.Proofs.Storage.Locality

/-!
# Arrays in memory and in place

An array that is read in place has no values but the bytes in which they lie, and cuts them out at
every query.  It answers like the owned array with the same values: the value at an index lies at a
multiple of the size of a value, and no query goes beyond the bytes.

## Main definitions

* `PlainArray.mappedForm`: the array as it is read from a file
* `PlainArray.SameAnswers`: two arrays that no query tells apart

## Main results

* `PlainArray.get_eq`, `PlainArray.range_eq`: the answers of both kinds of arrays from their values
* `readsBack_putArray`: an array that was written is read back in place
* `PlainArray.answers_in_place`: the array in place and the owned one answer alike
* `Reader.local_readPlainArray`: the reader of an array looks no further than it goes
-/

namespace Paradigm

variable {α : Type} [FixedInt α]

/-! ## Integers cut out of bytes -/

theorem FixedInt.size_pos (α : Type) [FixedInt α] : 0 < FixedInt.size α := IntWidth.bytes_pos _

/-- An integer is cut out of its own bytes. -/
theorem getElem?_split {count i : Nat} (h : i < count) (bytes : List UInt8) :
    (FixedInt.split α count bytes)[i]? =
      some (FixedInt.ofBytes ((bytes.drop (i * FixedInt.size α)).take (FixedInt.size α))) := by
  induction count generalizing i bytes with
  | zero => exact absurd h (Nat.not_lt_zero i)
  | succ count ih =>
    rw [FixedInt.split]
    cases i with
    | zero => simp
    | succ i =>
      rw [List.getElem?_cons_succ, ih (Nat.lt_of_succ_lt_succ h), List.drop_drop, Nat.succ_mul,
        Nat.add_comm]

/-- A run of integers is cut out of the bytes of the run. -/
theorem split_drop_take {count start stop : Nat} (hstop : stop ≤ count) (bytes : List UInt8) :
    FixedInt.split α (stop - start)
        ((bytes.take (stop * FixedInt.size α)).drop (start * FixedInt.size α)) =
      ((FixedInt.split α count bytes).take stop).drop start := by
  apply List.ext_getElem?
  intro i
  rw [List.getElem?_drop]
  rcases Nat.lt_or_ge (start + i) stop with hi | hi
  · have hlast : (start + i) * FixedInt.size α + FixedInt.size α ≤ stop * FixedInt.size α := by
      rw [← Nat.succ_mul]
      exact Nat.mul_le_mul_right _ hi
    rw [getElem?_split (by omega), List.getElem?_take_of_lt hi, getElem?_split (by omega),
      List.drop_drop, ← Nat.add_mul, List.drop_take, List.take_take, Nat.min_eq_left (by omega)]
  · rw [List.getElem?_eq_none (by rw [FixedInt.length_split]; omega),
      List.getElem?_eq_none ((List.length_take_le _ _).trans hi)]

namespace PlainArray

/-! ## Answers -/

section Answers

variable (a : PlainArray α)

@[simp] theorem length_toList : a.toList.length = a.size := by
  cases a <;> simp [toList, size]

/-- The value at an index. -/
theorem get_eq (index : Nat) :
    a.get index = (a.toList[index]?).elim (.error (.indexOutOfBounds index a.size)) .ok := by
  by_cases h : index < a.size
  · cases a with
    | owned values =>
      have hvalue : values.toList[index]? = some values[index] :=
        Array.getElem?_toList.trans (Array.getElem?_eq_getElem h)
      simp only [get, toList, hvalue]
      exact dif_pos h
    | inPlace bytes whole =>
      have hindex : index < bytes.size / FixedInt.size α := h
      -- the bytes of the value end within the array
      have hlast : index * FixedInt.size α + FixedInt.size α ≤ (View.mk bytes true).size := by
        rw [← Nat.succ_mul]
        exact (Nat.mul_le_mul_right _ hindex).trans (Nat.div_mul_le_self _ _)
      simp only [get, toList]
      rw [if_pos h, getElem?_split hindex, View.readAt, if_pos hlast, View.window_eq]
      rfl
  · rw [List.getElem?_eq_none (by rw [length_toList]; omega)]
    cases a with
    | owned values => exact dif_neg h
    | inPlace bytes whole => exact if_neg h

/-- The values up to an index, without those before another one. -/
theorem range_eq (start stop : Nat) :
    a.range start stop =
      if start ≤ stop ∧ stop ≤ a.size then .ok ((a.toList.take stop).drop start)
      else .error (.indexOutOfBounds stop a.size) := by
  unfold range
  split
  · rename_i h
    cases a with
    | owned values => simp [toList, List.extract_eq_take_drop, List.drop_take]
    | inPlace bytes whole =>
      have hstop : stop * FixedInt.size α ≤ bytes.size :=
        (Nat.mul_le_mul_right _ h.2).trans (Nat.div_mul_le_self _ _)
      have hsize : (bytes.extract (start * FixedInt.size α) (stop * FixedInt.size α)).size =
          (stop - start) * FixedInt.size α := by
        rw [ByteArray.size_extract, Nat.min_eq_left hstop, Nat.sub_mul]
      have hbytes : (bytes.extract (start * FixedInt.size α) (stop * FixedInt.size α)).data.toList =
          (bytes.data.toList.take (stop * FixedInt.size α)).drop (start * FixedInt.size α) := by
        simp [List.extract_eq_take_drop, List.drop_take]
      dsimp only
      rw [hsize, Nat.mul_div_cancel _ (FixedInt.size_pos α), hbytes, toList]
      exact congrArg _ (split_drop_take h.2 _)
  · rfl

end Answers

theorem get_eq_ok {a : PlainArray α} {i : Nat} {v : α} (h : a.toList[i]? = some v) :
    a.get i = .ok v := by
  rw [get_eq, h]
  rfl

theorem get_eq_error {a : PlainArray α} {i : Nat} (h : a.size ≤ i) :
    a.get i = .error (.indexOutOfBounds i a.size) := by
  rw [get_eq, List.getElem?_eq_none (by rwa [length_toList])]
  rfl

/-- No query tells the two arrays apart, and they are stored alike. -/
structure SameAnswers (a b : PlainArray α) : Prop where
  size_eq : b.size = a.size
  get_eq : ∀ index, b.get index = a.get index
  range_eq : ∀ start stop, b.range start stop = a.range start stop
  putArray_eq : ∀ out : Writer, out.putArray b = out.putArray a

/-! ## The stored form -/

/-- The array as it is read from a file. -/
def mappedForm : PlainArray α → PlainArray α
  | owned values => inPlace (values.toList.flatMap FixedInt.toBytes).toByteArray
      (Dvd.intro_left values.toList.length (by
        rw [← length_flatMap_toBytes, List.size_toByteArray]))
  | inPlace bytes whole => inPlace bytes whole

@[simp] theorem mapped_mappedForm (a : PlainArray α) : a.mappedForm.mapped = true := by
  cases a <;> rfl

@[simp] theorem size_mappedForm (a : PlainArray α) : a.mappedForm.size = a.size := by
  cases a with
  | owned values =>
    simp only [mappedForm, size, List.size_toByteArray, length_flatMap_toBytes,
      Nat.mul_div_cancel _ (FixedInt.size_pos α), Array.length_toList]
  | inPlace bytes whole => rfl

@[simp] theorem toList_mappedForm (a : PlainArray α) : a.mappedForm.toList = a.toList := by
  cases a with
  | owned values =>
    simp only [mappedForm, toList, List.size_toByteArray, length_flatMap_toBytes,
      Nat.mul_div_cancel _ (FixedInt.size_pos α), List.toList_data_toByteArray,
      split_flatMap_toBytes]
  | inPlace bytes whole => rfl

@[simp] theorem putArray_mappedForm (a : PlainArray α) (out : Writer) :
    out.putArray a.mappedForm = out.putArray a := by
  cases a with
  | owned values =>
    simp only [mappedForm, Writer.putArray, List.toList_data_toByteArray, Writer.putAll]
  | inPlace bytes whole => rfl

@[simp] theorem get_mappedForm (a : PlainArray α) (index : Nat) :
    a.mappedForm.get index = a.get index := by
  rw [get_eq, get_eq, toList_mappedForm, size_mappedForm]

@[simp] theorem range_mappedForm (a : PlainArray α) (start stop : Nat) :
    a.mappedForm.range start stop = a.range start stop := by
  rw [range_eq, range_eq, toList_mappedForm, size_mappedForm]

theorem sameAnswers_mappedForm (a : PlainArray α) : a.SameAnswers a.mappedForm where
  size_eq := a.size_mappedForm
  get_eq := a.get_mappedForm
  range_eq := a.range_mappedForm
  putArray_eq := a.putArray_mappedForm

end PlainArray

/-! ## Reading in place -/

/-- A sub-view is cut out of the view where the cursor stands. -/
theorem reads_subView {v : View} {p length : Nat} (h : p + length ≤ v.size) :
    ∃ size_eq, Reads (Reader.subView length) v p
      ⟨⟨v.bytes.extract p (p + length), v.mapped⟩, size_eq⟩ (p + length) := by
  obtain ⟨size_eq, hcut⟩ := View.subView_eq_ok h
  exact ⟨size_eq, (Reads.advance h).bind (Reads.check hcut v _)⟩

/-- An array in place has the bytes of the view where the cursor stands. -/
theorem reads_readPlainArray {v : View} {p count : Nat}
    (h : p + count * FixedInt.size α ≤ v.size) :
    ∃ whole, Reads (Reader.readPlainArray α count) v p
      (.inPlace (v.bytes.extract p (p + count * FixedInt.size α)) whole)
      (p + count * FixedInt.size α) := by
  obtain ⟨size_eq, hreads⟩ := reads_subView h
  exact ⟨_, hreads.bind (Reads.pure _ v _)⟩

/-- An array that was written is read back in place. -/
theorem readsBack_putArray (out : Writer) (a : PlainArray α) :
    ReadsBack out (out.putArray a) (Reader.readPlainArray α a.size) a.mappedForm := by
  rw [← PlainArray.putArray_mappedForm, ← PlainArray.size_mappedForm]
  obtain ⟨bytes, whole, hmapped⟩ : ∃ bytes whole, a.mappedForm = .inPlace bytes whole := by
    cases a <;> exact ⟨_, _, rfl⟩
  rw [hmapped]
  have hsize : bytes.size / FixedInt.size α * FixedInt.size α = bytes.size :=
    Nat.div_mul_cancel whole
  have hposition : (out.putArray (.inPlace bytes whole)).position = out.position + bytes.size :=
    Writer.position_append out bytes.data.toList
  refine ⟨by simp [Writer.putArray], fun v hv => ?_⟩
  have hlast : out.position + bytes.size / FixedInt.size α * FixedInt.size α ≤ v.size := by
    rw [hsize]
    exact hposition ▸ hv.length_le
  obtain ⟨whole', hreads⟩ := reads_readPlainArray (α := α) hlast
  -- what is cut out of the view is what was written
  have hbytes : v.bytes.extract out.position (out.position + bytes.size) = bytes := by
    rw [Writer.putArray, Writer.toList_append] at hv
    exact ByteArray.ext (Array.toList_inj.1 (View.window_of_append hv))
  simp only [hsize, hbytes] at hreads
  rw [hposition]
  exact hreads

namespace Reader

theorem local_readPlainArray (α : Type) [FixedInt α] (count : Nat) :
    Local (readPlainArray α count) := by
  have herror : ∀ {v : View} {p : Nat} (hp : p ≤ v.size), v.size < p + count * FixedInt.size α →
      ∃ expected c, readPlainArray α count ⟨v, p, hp⟩ = .error (.tooShort expected v.size) c := by
    intro v p hp hlt
    obtain ⟨expected, c, hc⟩ := advance_eq_error hp hlt
    exact ⟨expected, c, bind_eq_error (bind_eq_error hc)⟩
  intro c a c' h
  rcases Nat.lt_or_ge c.view.size (c.position + count * FixedInt.size α) with hlt | hle
  · obtain ⟨expected, c'', hc⟩ := herror c.position_le hlt
    cases h.symm.trans hc
  · obtain ⟨whole, hreads⟩ := reads_readPlainArray (α := α) hle
    obtain ⟨hq, hread⟩ := hreads c.position_le
    obtain ⟨rfl, rfl⟩ := EStateM.Result.ok.inj (h.symm.trans hread)
    refine ⟨rfl, Nat.le_add_right _ _, fun w hw => ?_, fun w _ hlt hp => herror hp hlt⟩
    obtain ⟨whole', hreads'⟩ := reads_readPlainArray (α := α) (View.le_size_of_take hle hw)
    -- the other view has the same bytes
    have hbytes := ByteArray.ext (Array.toList_inj.1 (View.window_congr hle hw))
    simp only [hbytes] at hreads'
    exact hreads'

end Reader

namespace PlainArray

/-- **An array answers in place as it does in memory.**  Wherever the array of a list was written
and whatever follows it in the file, there is read in place an array with the same number of values
that gives the same values and runs of values, fails alike, and is written with the same bytes. -/
theorem answers_in_place (values : List α) (out : Writer) (rest : List UInt8) (mapped : Bool) :
    let written := out.putArray (ofList values)
    let file : View := ⟨(written.append rest).bytes, mapped⟩
    ∃ (hstart : out.position ≤ file.size) (hstop : written.position ≤ file.size)
      (a : PlainArray α),
      Reader.readPlainArray α values.length ⟨file, out.position, hstart⟩ =
        .ok a ⟨file, written.position, hstop⟩ ∧
      a.mapped = true ∧ (ofList values).SameAnswers a ∧
      a.size = values.length ∧
      (∀ index, a.get index =
        (values[index]?).elim (.error (.indexOutOfBounds index values.length)) .ok) ∧
      ∀ start stop, a.range start stop =
        if start ≤ stop ∧ stop ≤ values.length then .ok ((values.take stop).drop start)
        else .error (.indexOutOfBounds stop values.length) := by
  intro written file
  have hread : ReadsBack out written (Reader.readPlainArray α values.length)
      (ofList values).mappedForm := readsBack_putArray out (ofList values)
  have hlonger : written.toList <+: file.toList := by
    show written.toList <+: (written.append rest).toList
    simp
  have hstart : out.position ≤ file.size := (hread.grows.trans hlonger).length_le
  obtain ⟨hstop, hreads⟩ := hread.reads file hlonger hstart
  refine ⟨hstart, hstop, (ofList values).mappedForm, hreads, mapped_mappedForm _,
    sameAnswers_mappedForm _, size_mappedForm _, fun index => ?_, fun start stop => ?_⟩
  · rw [get_mappedForm, get_eq]
    rfl
  · rw [range_mappedForm, range_eq]
    rfl

/-- The values begin at an odd place. -/
example :
    Reader.run (do
      Reader.skip 1
      let a ← Reader.readPlainArray Int16 3
      Reader.check (a.range 1 3)) (.ofList [0, 3, 0, 255, 255, 7, 0]) = .ok [-1, 7] := by
  decide

end PlainArray

end Paradigm
