import Mathlib
import Paradigm.Proofs.Storage.PackedArray

/-!
# Histories of packed arrays

An array in memory is written to again and again, and some of the calls fail.  Whatever its history,
it is a list of values: a call replaces one of them or, if it fails, none, so that an index gives
what was stored there last.

## Main definitions

* `PackedArray.Call`, `PackedArray.Call.Accepted`: a call that replaces a value, and whether it is
  carried out
* `PackedArray.afterCalls`: an array after a run of calls
* `PackedArray.lastValue?`: the value of the last call to an index that was carried out
* `PackedArray.Represents`: an array that can be written to stands for a list of values

## Main results

* `PackedArray.Represents.set_cases`: what one call does
* `PackedArray.Represents.afterCalls`: what a run of calls does
* `PackedArray.get_afterCalls`: the values after any history
-/

namespace Paradigm

/-- Zero is the value of which all bits are clear. -/
theorem FixedInt.toInt_ofNat_zero (k : IntKind) :
    FixedInt.toInt (FixedInt.ofNat 0 : k.Carrier) = 0 := by
  cases k <;> rfl

namespace PackedArray

variable {α : Type} [FixedInt α]

/-! ## Calls -/

/-- A call that replaces the value at an index. -/
structure Call (α : Type) where
  index : Nat
  value : α

/-- The calls that an array with the given width and length carries out: the index is one of the
array, and the value has no bits beyond the width when it is extended to a word. -/
def Call.Accepted (width length : Nat) (c : Call α) : Prop :=
  c.index < length ∧ (FixedInt.toWord c.value).toNat < 2 ^ width

instance (width length : Nat) (c : Call α) : Decidable (c.Accepted width length) :=
  inferInstanceAs (Decidable (_ ∧ _))

/-- The array that a call leaves behind, whether it is carried out or fails. -/
def afterCall (a : PackedArray α) (c : Call α) : PackedArray α :=
  match set c.index c.value a with
  | .ok _ b => b
  | .error _ b => b

/-- The array after a run of calls. -/
def afterCalls (a : PackedArray α) (calls : List (Call α)) : PackedArray α :=
  calls.foldl afterCall a

/-- The value of the last call to an index that was carried out. -/
def lastValue? (width length : Nat) (calls : List (Call α)) (index : Nat) : Option α :=
  (calls.reverse.find? fun c => c.index = index ∧ c.Accepted width length).map Call.value

theorem lastValue?_append (width length : Nat) (calls : List (Call α)) (c : Call α) (index : Nat) :
    lastValue? width length (calls ++ [c]) index =
      if c.index = index ∧ c.Accepted width length then some c.value
      else lastValue? width length calls index := by
  rw [lastValue?, List.reverse_append, List.reverse_singleton, List.singleton_append,
    List.find?_cons]
  by_cases h : c.index = index ∧ c.Accepted width length
  · rw [if_pos h, decide_eq_true h]
    rfl
  · rw [if_neg h, decide_eq_false h]
    rfl

/-! ## Lists of values -/

/-- A list of values after a call. -/
def Call.apply (width : Nat) (values : List α) (c : Call α) : List α :=
  if c.Accepted width values.length then values.set c.index c.value else values

@[simp] theorem Call.length_apply (width : Nat) (values : List α) (c : Call α) :
    (c.apply width values).length = values.length := by
  unfold apply
  split <;> simp

@[simp] theorem Call.length_foldl_apply (width : Nat) (values : List α) (calls : List (Call α)) :
    (calls.foldl (Call.apply width) values).length = values.length := by
  induction calls generalizing values with
  | nil => rfl
  | cons c calls ih => rw [List.foldl_cons, ih, Call.length_apply]

/-- After a run of calls an index has its last value, or the one from before. -/
theorem Call.getElem?_foldl_apply (width : Nat) {values : List α} (calls : List (Call α))
    {index : Nat} (h : index < values.length) :
    (calls.foldl (Call.apply width) values)[index]? =
      (lastValue? width values.length calls index).or values[index]? := by
  -- the last call is looked at first
  induction calls using List.reverseRecOn with
  | nil => rfl
  | append_singleton calls c ih =>
    rw [List.foldl_append, List.foldl_cons, List.foldl_nil, lastValue?_append, Call.apply,
      Call.length_foldl_apply]
    by_cases haccepted : c.Accepted width values.length
    · rw [if_pos haccepted]
      by_cases hindex : c.index = index
      · subst hindex
        rw [List.getElem?_set_self (by rwa [Call.length_foldl_apply]), if_pos ⟨rfl, haccepted⟩,
          Option.some_or]
      · rw [List.getElem?_set_ne hindex, if_neg (fun h => hindex h.1), ih]
    · rw [if_neg haccepted, if_neg (fun h => haccepted h.2), ih]

/-! ## Arrays as lists of values -/

/-- An array that can be written to stands for a list of values of one width. -/
structure Represents (a : PackedArray α) (width : Nat) (values : List α) : Prop where
  width_eq : a.width = width
  length_eq : a.length = values.length
  writable : a.mapped = false
  holds : a.Holds values

theorem exists_represents_zeros {width length : Nat} (hwidth : 1 ≤ width ∧ width ≤ wordBits)
    (hlength : length * width < addressLimit) : ∃ a : PackedArray α, zeros width length = .ok a ∧
      a.Represents width (List.replicate length (FixedInt.ofNat 0)) := by
  obtain ⟨a, ha⟩ := exists_zeros (α := α) hwidth hlength
  obtain ⟨-, -, hawidth, halength, hamapped, -⟩ := zeros_eq_ok ha
  refine ⟨a, ha, hawidth, by rw [halength, List.length_replicate], hamapped, fun i hi => ?_⟩
  rw [List.length_replicate] at hi
  rw [get, if_pos (by rwa [halength]), bits_zeros ha, List.getElem_replicate]

/-- A call that fails leaves the array as it was. -/
theorem eq_of_set_eq_error {a b : PackedArray α} {index : Nat} {v : α} {e : StorageError}
    (h : set index v a = .error e b) : b = a := by
  rw [set_apply] at h
  split at h
  · exact (EStateM.Result.error.inj h).2.symm
  split at h
  · exact (EStateM.Result.error.inj h).2.symm
  split at h
  · exact (EStateM.Result.error.inj h).2.symm
  · cases h

/-- A value that is too wide is refused, and so is one for an index beyond the end. -/
theorem exists_set_eq_error {a : PackedArray α} {c : Call α}
    (h : ¬ c.Accepted a.width a.length) : ∃ e, set c.index c.value a = .error e a := by
  rw [set_apply]
  by_cases hvalue : bitLimit a.width ≤ (FixedInt.toWord c.value).toNat
  · exact ⟨_, if_pos hvalue⟩
  · have hindex : a.length ≤ c.index :=
      Nat.le_of_not_lt fun hindex => h ⟨hindex, Nat.lt_of_not_le hvalue⟩
    exact ⟨_, (if_neg hvalue).trans (if_pos hindex)⟩

namespace Represents

variable {a : PackedArray α} {width : Nat} {values : List α}

theorem get_eq_error (h : a.Represents width values) {i : Nat} (hi : values.length ≤ i) :
    a.get i = .error (.indexOutOfBounds i values.length) := by
  rw [get, h.length_eq, if_neg (Nat.not_lt_of_le hi)]

/-- **One call** replaces the value at its index and no other, or it fails. -/
theorem set_cases (h : a.Represents width values) (c : Call α) :
    (c.Accepted width values.length ∧ ∃ b, set c.index c.value a = .ok () b ∧
      b.Represents width (values.set c.index c.value)) ∨
    (¬ c.Accepted width values.length ∧ ∃ e, set c.index c.value a = .error e a) := by
  by_cases haccepted : c.Accepted width values.length
  · obtain ⟨hindex, hvalue⟩ := id haccepted
    rw [← h.length_eq] at hindex
    rw [← h.width_eq] at hvalue
    have hlength : a.length = (values.set c.index c.value).length := by
      rw [h.length_eq, List.length_set]
    refine .inl ⟨haccepted, _, set_eq_ok h.writable hindex hvalue,
      ⟨h.width_eq, hlength, h.writable, fun i hi => ?_⟩⟩
    · have hi' : i < values.length := by rwa [List.length_set] at hi
      have hget := h.holds i hi'
      rw [get, if_pos (by rwa [h.length_eq])] at hget
      rw [get, length_replaceBits, if_pos (hi.trans_eq hlength.symm),
        a.bits_replaceBits hindex hvalue, List.getElem_set]
      -- the index of the call has its value, and every other index the value that it had
      by_cases hindex : i = c.index
      · rw [if_pos hindex, if_pos hindex.symm, ofNat_toNat_toWord]
      · rw [if_neg hindex, if_neg (Ne.symm hindex), hget]
  · refine .inr ⟨haccepted, ?_⟩
    apply exists_set_eq_error
    rwa [h.length_eq, h.width_eq]

/-- A call does to the array what it does to the list of values. -/
theorem afterCall (h : a.Represents width values) (c : Call α) :
    (a.afterCall c).Represents width (c.apply width values) := by
  rw [PackedArray.afterCall, Call.apply]
  obtain ⟨haccepted, b, hb, hrepresents⟩ | ⟨hrefused, e, he⟩ := h.set_cases c
  · rw [hb, if_pos haccepted]
    exact hrepresents
  · rw [he, if_neg hrefused]
    exact h

/-- **A run of calls** does to the array what it does to the list of values. -/
theorem afterCalls (h : a.Represents width values) (calls : List (Call α)) :
    (a.afterCalls calls).Represents width (calls.foldl (Call.apply width) values) := by
  induction calls generalizing a values with
  | nil => exact h
  | cons c calls ih => exact ih (h.afterCall c)

theorem set_isOk_iff (h : a.Represents width values) (c : Call α) :
    (∃ b, set c.index c.value a = .ok () b) ↔ c.Accepted width values.length := by
  obtain ⟨haccepted, b, hb, -⟩ | ⟨hrefused, e, he⟩ := h.set_cases c
  · exact iff_of_true ⟨b, hb⟩ haccepted
  · refine iff_of_false ?_ hrefused
    rintro ⟨b, hb⟩
    rw [hb] at he
    cases he

end Represents

/-- **A packed array is a list of values, whatever its history.**  A call is carried out if its
index is one of the array and its value fits the width; another one fails and leaves the array as
it was, with all values.
Every index then gives the value of the last call to it that was carried out, or zero if there was
none, and no value is given beyond the length. -/
theorem get_afterCalls (k : IntKind) {width length : Nat}
    (hwidth : 1 ≤ width ∧ width ≤ wordBits) (hlength : length * width < addressLimit) :
    ∃ a : PackedArray k.Carrier, zeros width length = .ok a ∧ ∀ calls : List (Call k.Carrier),
      (∀ c : Call k.Carrier, (∃ b, set c.index c.value (a.afterCalls calls) = .ok () b) ↔
        c.index < length ∧ (FixedInt.toWord c.value).toNat < 2 ^ width) ∧
      (∀ (c : Call k.Carrier) (e : StorageError) (b : PackedArray k.Carrier),
        set c.index c.value (a.afterCalls calls) = .error e b → b = a.afterCalls calls ∧
          ∀ i, (a.afterCalls (calls ++ [c])).get i = (a.afterCalls calls).get i) ∧
      (∀ i < length, ∃ v, (a.afterCalls calls).get i = .ok v ∧
        (lastValue? width length calls i = some v ∨
          lastValue? width length calls i = none ∧ FixedInt.toInt v = 0)) ∧
      ∀ i, length ≤ i → (a.afterCalls calls).get i = .error (.indexOutOfBounds i length) := by
  obtain ⟨a, ha, hzeros⟩ := exists_represents_zeros (α := k.Carrier) hwidth hlength
  refine ⟨a, ha, fun calls => ?_⟩
  have h := hzeros.afterCalls calls
  have hlen : (calls.foldl (Call.apply width)
      (List.replicate length (FixedInt.ofNat 0 : k.Carrier))).length = length := by
    rw [Call.length_foldl_apply, List.length_replicate]
  refine ⟨fun c => ?_, fun c e b he => ?_, fun i hi => ?_, fun i hi => ?_⟩
  · rw [h.set_isOk_iff, hlen]
    rfl
  · obtain rfl := eq_of_set_eq_error he
    refine ⟨rfl, fun i => ?_⟩
    rw [PackedArray.afterCalls, List.foldl_append, List.foldl_cons, List.foldl_nil, ← afterCalls,
      PackedArray.afterCall, he]
  · have hin : i < (List.replicate length (FixedInt.ofNat 0 : k.Carrier)).length := by
      rwa [List.length_replicate]
    have hget := Call.getElem?_foldl_apply width calls hin
    rw [List.length_replicate, List.getElem?_replicate, if_pos hi] at hget
    -- the last value is there, or the zero from the beginning
    cases hlast : lastValue? width length calls i with
    | some v =>
      rw [hlast] at hget
      exact ⟨v, h.holds.get? hget, .inl rfl⟩
    | none =>
      rw [hlast] at hget
      exact ⟨_, h.holds.get? hget, .inr ⟨rfl, FixedInt.toInt_ofNat_zero k⟩⟩
  · have herror := h.get_eq_error (i := i) (by rwa [hlen])
    rwa [hlen] at herror

theorem get_afterCalls_across_words :
    (1 ≤ 7 ∧ 7 ≤ wordBits) ∧ 20 * 7 < addressLimit ∧
      ∃ a : PackedArray UInt8, zeros 7 20 = .ok a ∧
        (a.afterCalls [⟨9, 127⟩, ⟨8, 3⟩, ⟨9, 93⟩, ⟨9, 200⟩]).get 9 = .ok 93 ∧
        ¬ ∃ b, set 9 200 (a.afterCalls [⟨9, 127⟩, ⟨8, 3⟩, ⟨9, 93⟩]) = .ok () b := by
  have hwidth : 1 ≤ 7 ∧ 7 ≤ wordBits := by decide
  have hlength : 20 * 7 < addressLimit := by decide
  obtain ⟨a, ha, h⟩ := get_afterCalls .uint8 hwidth hlength
  refine ⟨hwidth, hlength, a, ha, ?_, ?_⟩
  · obtain ⟨v, hv, hlast | ⟨hnone, -⟩⟩ :=
      (h [⟨9, 127⟩, ⟨8, 3⟩, ⟨9, 93⟩, ⟨9, 200⟩]).2.2.1 9 (by decide)
    · obtain rfl : (93 : UInt8) = v := Option.some.inj hlast
      exact hv
    · cases hnone
  · rw [(h [⟨9, 127⟩, ⟨8, 3⟩, ⟨9, 93⟩]).1 ⟨9, 200⟩]
    decide

end PackedArray

end Paradigm
