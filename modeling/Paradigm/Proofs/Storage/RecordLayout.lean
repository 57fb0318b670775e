import Mathlib
import Paradigm.Proofs.Outcome
import Paradigm.Proofs.Storage.Bits
import Paradigm.Storage.Fields
import Paradigm.Storage.RecordLayout

/-!
# The fields of packed records

A record is the number whose digits are its fields, each to the base of its width.  Where the widths
take no more than a word, the record of given fields is taken apart into them again, and the widths
in a header give back their layout.

## Main definitions

* `RecordLayout.digits`: the number of given fields
* `RecordLayout.WithinWord`: the widths take no more than a word

## Main results

* `RecordLayout.decode_of_encode`: taking apart undoes putting together
* `RecordLayout.of_ofWidths`: every layout that was made from widths lies within a word
* `RecordLayout.ofHeader_headerWidths`: the layout of its own header
-/

namespace Paradigm

namespace RecordLayout

variable {n : Nat}

/-! ## Lists of fields -/

/-- The number whose digits are the given fields, the first the lowest. -/
def digits : List (String × UInt32 × UInt64) → Nat
  | [] => 0
  | (_, width, value) :: rest => value.toNat + 2 ^ width.toNat * digits rest

/-- The sum of widths. -/
def span (widths : List UInt32) : Nat := (widths.map UInt32.toNat).sum

@[simp] theorem span_nil : span [] = 0 := rfl

@[simp] theorem span_cons (w : UInt32) (ws : List UInt32) : span (w :: ws) = w.toNat + span ws :=
  rfl

theorem digits_lt {fields : List (String × UInt32 × UInt64)}
    (h : ∀ f ∈ fields, f.2.2.toNat < 2 ^ f.2.1.toNat) :
    digits fields < 2 ^ span (fields.map (·.2.1)) := by
  induction fields with
  | nil => simp [digits]
  | cons f fields ih =>
    obtain ⟨name, width, value⟩ := f
    have hv : value.toNat < 2 ^ width.toNat := h (name, width, value) (by simp)
    have hrest := ih fun f hf => h f (by simp [hf])
    simp only [digits, List.map_cons, span_cons, Nat.pow_add]
    calc value.toNat + 2 ^ width.toNat * digits fields
        < 2 ^ width.toNat + 2 ^ width.toNat * digits fields := by omega
      _ = 2 ^ width.toNat * (digits fields + 1) := by rw [Nat.mul_succ, Nat.add_comm]
      _ ≤ 2 ^ width.toNat * 2 ^ span (fields.map (·.2.1)) := Nat.mul_le_mul_left _ hrest

/-- A field that is put below others adds its value to the multiple of a power of two. -/
theorem toNat_shiftLeft_or {value high : UInt64} {shift width rest : Nat} (hshift : shift < 64)
    (hspan : shift + width ≤ 64) (hv : value.toNat < 2 ^ width)
    (hhigh : high.toNat = 2 ^ (shift + width) * rest) :
    (value <<< UInt64.ofNat shift ||| high).toNat = 2 ^ shift * (value.toNat + 2 ^ width * rest) := by
  have hlow : value.toNat * 2 ^ shift < 2 ^ (shift + width) := by
    rw [Nat.pow_add, Nat.mul_comm]
    exact Nat.mul_lt_mul_of_pos_left hv (Nat.two_pow_pos _)
  have hword : 2 ^ (shift + width) ≤ 2 ^ 64 := Nat.pow_le_pow_right (by omega) hspan
  have hplaces : shift < UInt64.size := Nat.lt_trans hshift (by decide)
  -- the bits of the field lie below those of the others, so that the disjunction is a sum
  rw [UInt64.toNat_or, UInt64.toNat_shiftLeft, UInt64.toNat_ofNat_of_lt' hplaces,
    Nat.mod_eq_of_lt hshift, Nat.shiftLeft_eq, Nat.mod_eq_of_lt (hlow.trans_le hword), hhigh,
    Nat.or_comm, ← Nat.two_pow_add_eq_or_of_lt hlow, Nat.pow_add]
  ring

/-- A field without bits is empty, and its place might be the end of the word. -/
theorem placed_eq_ok {shift : Nat} {width : UInt32} {value : UInt64}
    (hspan : shift + width.toNat ≤ 64) (hv : value.toNat < 2 ^ width.toNat) :
    ∃ low, placed shift width value = .ok low ∧ ∀ (high : UInt64) (rest : Nat),
      high.toNat = 2 ^ (shift + width.toNat) * rest →
        (low ||| high).toNat = 2 ^ shift * (value.toNat + 2 ^ width.toNat * rest) := by
  unfold placed
  split
  next hpos =>
    have hwidth : 0 < width.toNat := UInt32.lt_iff_toNat_lt.1 hpos
    have hshift : shift < 64 := by omega
    exact ⟨value <<< UInt64.ofNat shift, if_pos hshift,
      fun high rest hhigh => toNat_shiftLeft_or hshift hspan hv hhigh⟩
  next hnone =>
    have hwidth : width.toNat = 0 := by
      rw [UInt32.lt_iff_toNat_lt] at hnone
      simpa using hnone
    rw [hwidth] at hv ⊢
    have hvalue : value.toNat = 0 := by simpa using hv
    refine ⟨0, rfl, fun high rest hhigh => ?_⟩
    rw [UInt64.zero_or, hhigh, hvalue]
    simp

/-- A field that fits is put in below the others. -/
theorem encodeFields_cons {shift : Nat} {name : String} {width : UInt32} {value low : UInt64}
    (rest : List (String × UInt32 × UInt64)) (hspan : shift + width.toNat ≤ 64)
    (hv : value.toNat < 2 ^ width.toNat) (hlow : placed shift width value = .ok low) :
    encodeFields shift ((name, width, value) :: rest) =
      (low ||| ·) <$> encodeFields (shift + width.toNat) rest := by
  have hfield : extractBits value 0 width = .ok value :=
    extractBits_zero_eq_self_iff.2 ⟨by omega, hv⟩
  have hsum : shift + width.toNat < halfLimit := hspan.trans_lt (by decide)
  rw [encodeFields, hfield, Except.ok_bind, if_neg (not_not.2 rfl)]
  show (liftM (placed shift width value) >>= _) = _
  rw [hlow, Checked.liftM_ok, Except.ok_bind, Checked.add_eq_ok hsum, Checked.liftM_ok,
    Except.ok_bind]
  rfl

/-- A field that is too great is refused. -/
theorem encodeFields_cons_eq_error {shift : Nat} {name : String} {width : UInt32} {value : UInt64}
    (rest : List (String × UInt32 × UInt64)) (hwidth : width.toNat ≤ 64)
    (hv : ¬ value.toNat < 2 ^ width.toNat) :
    encodeFields shift ((name, width, value) :: rest) =
      .error (.fieldOverflow name value width.toNat) := by
  -- what is left of the value within its width is another number
  have hcut : UInt64.ofNat (value.toNat % 2 ^ width.toNat) ≠ value := fun heq =>
    hv (extractBits_zero_eq_self_iff.1 (by rw [extractBits_zero hwidth, heq])).2
  rw [encodeFields, extractBits_zero hwidth, Except.ok_bind, if_pos hcut]
  rfl

/-- Fields that fit are put into a word from a bit on, as the digits of a multiple of a power of
two. -/
theorem exists_encodeFields {shift : Nat} {fields : List (String × UInt32 × UInt64)}
    (hspan : shift + span (fields.map (·.2.1)) ≤ 64)
    (hfit : ∀ f ∈ fields, f.2.2.toNat < 2 ^ f.2.1.toNat) :
    ∃ raw, encodeFields shift fields = .ok raw ∧ raw.toNat = 2 ^ shift * digits fields := by
  induction fields generalizing shift with
  | nil => exact ⟨0, rfl, rfl⟩
  | cons f fields ih =>
    obtain ⟨name, width, value⟩ := f
    simp only [List.map_cons, span_cons] at hspan
    have hv : value.toNat < 2 ^ width.toNat := hfit (name, width, value) List.mem_cons_self
    obtain ⟨high, hhigh, hraw⟩ := @ih (shift + width.toNat) (by omega)
      fun f hf => hfit f (List.mem_cons_of_mem _ hf)
    have hend : shift + width.toNat ≤ 64 := by omega
    obtain ⟨low, hlow, hsum⟩ := placed_eq_ok hend hv
    exact ⟨low ||| high, by rw [encodeFields_cons fields hend hv hlow, hhigh, Except.map_ok],
      hsum high (digits fields) hraw⟩

/-- All fields that were put into a word fit. -/
theorem fits_of_encodeFields {shift : Nat} {fields : List (String × UInt32 × UInt64)}
    {raw : UInt64} (h : encodeFields shift fields = .ok raw) :
    ∀ f ∈ fields, f.2.2.toNat < 2 ^ f.2.1.toNat := by
  induction fields generalizing shift raw with
  | nil => nofun
  | cons f fields ih =>
    obtain ⟨name, width, value⟩ := f
    obtain ⟨field, hfield, h⟩ := Except.bind_eq_ok.1 h
    by_cases hne : field ≠ value
    · rw [if_pos hne] at h
      cases h
    rw [if_neg hne] at h
    obtain ⟨low, -, h⟩ := Except.bind_eq_ok.1 h
    obtain ⟨next, -, h⟩ := Except.bind_eq_ok.1 h
    obtain ⟨high, hhigh, -⟩ := Except.bind_eq_ok.1 h
    rw [not_not.1 hne] at hfield
    rw [List.forall_mem_cons]
    exact ⟨(extractBits_zero_eq_self_iff.1 hfield).2, ih hhigh⟩

/-- A field comes off the low end of a word as the remainder, and leaves the quotient. -/
theorem run_takeField {width : UInt32} (h : width.toNat ≤ 64) (raw : UInt64) :
    (takeField width).run raw = .ok (UInt64.ofNat (raw.toNat % 2 ^ width.toNat),
      UInt64.ofNat (raw.toNat / 2 ^ width.toNat)) := by
  show takeField width raw = _
  rw [takeField, extractBits_zero h]
  rfl

/-- The fields come off the low end of their number one after the other. -/
theorem run_mapM_takeField {fields : List (String × UInt32 × UInt64)} {raw : UInt64}
    (hspan : span (fields.map (·.2.1)) ≤ 64)
    (hfit : ∀ f ∈ fields, f.2.2.toNat < 2 ^ f.2.1.toNat) (hraw : raw.toNat = digits fields) :
    ∃ rest, ((fields.map (·.2.1)).mapM takeField).run raw = .ok (fields.map (·.2.2), rest) := by
  induction fields generalizing raw with
  | nil => exact ⟨raw, rfl⟩
  | cons f fields ih =>
    obtain ⟨name, width, value⟩ := f
    simp only [List.map_cons, span_cons] at hspan
    have hv : value.toNat < 2 ^ width.toNat := hfit (name, width, value) (by simp)
    -- the lowest digit is the first field, and the quotient the number of the others
    have hlow : raw.toNat % 2 ^ width.toNat = value.toNat := by
      rw [hraw, digits, Nat.add_mul_mod_self_left, Nat.mod_eq_of_lt hv]
    have hhigh : raw.toNat / 2 ^ width.toNat = digits fields := by
      rw [hraw, digits, Nat.add_mul_div_left _ _ (Nat.two_pow_pos _), Nat.div_eq_of_lt hv,
        Nat.zero_add]
    have htake : (takeField width).run raw =
        .ok (value, UInt64.ofNat (raw.toNat / 2 ^ width.toNat)) := by
      rw [run_takeField (by omega), hlow, UInt64.ofNat_toNat]
    have hraw' : (UInt64.ofNat (raw.toNat / 2 ^ width.toNat)).toNat = digits fields := by
      rw [UInt64.toNat_ofNat_of_lt' ((Nat.div_le_self _ _).trans_lt raw.toNat_lt), hhigh]
    obtain ⟨rest, hrest⟩ := ih (by omega) (fun f hf => hfit f (by simp [hf])) hraw'
    refine ⟨rest, ?_⟩
    rw [List.map_cons, List.mapM_cons, StateT.run_bind, htake, Except.ok_bind, StateT.run_bind,
      hrest]
    rfl

/-! ## Records -/

/-- The widths take no more than a word. -/
def WithinWord (l : RecordLayout n) : Prop := span l.widths.toList ≤ 64

/-- The fields with their names and widths. -/
def named (l : RecordLayout n) (fields : Vector UInt64 n) : List (String × UInt32 × UInt64) :=
  l.names.toList.zip (l.widths.toList.zip fields.toList)

theorem map_width_named (l : RecordLayout n) (fields : Vector UInt64 n) :
    (l.named fields).map (·.2.1) = l.widths.toList := by
  have h : (l.named fields).map Prod.snd = l.widths.toList.zip fields.toList :=
    List.map_snd_zip (by simp)
  calc (l.named fields).map (·.2.1) = ((l.named fields).map Prod.snd).map Prod.fst := by simp
    _ = l.widths.toList := by rw [h, List.map_fst_zip (by simp)]

theorem map_value_named (l : RecordLayout n) (fields : Vector UInt64 n) :
    (l.named fields).map (·.2.2) = fields.toList := by
  have h : (l.named fields).map Prod.snd = l.widths.toList.zip fields.toList :=
    List.map_snd_zip (by simp)
  calc (l.named fields).map (·.2.2) = ((l.named fields).map Prod.snd).map Prod.snd := by simp
    _ = fields.toList := by rw [h, List.map_snd_zip (by simp)]

/-- Mapping over a vector is mapping over the list of its elements. -/
theorem toList_mapM {m : Type → Type} [Monad m] [LawfulMonad m] {α β : Type} (f : α → m β)
    (xs : Vector α n) : Vector.toList <$> xs.mapM f = xs.toList.mapM f := by
  show (Array.toList ∘ Vector.toArray) <$> xs.mapM f = _
  rw [comp_map, Vector.toArray_mapM, Array.toList_mapM]
  rfl

/-- The fields of a record come off its low end one after the other. -/
theorem decode_eq_ok_iff {l : RecordLayout n} {fields : Vector UInt64 n} {raw : UInt64} :
    l.decode raw = .ok fields ↔
      ∃ rest, (l.widths.toList.mapM takeField).run raw = .ok (fields.toList, rest) := by
  show Prod.fst <$> (l.widths.mapM takeField).run raw = .ok fields ↔ _
  rw [← toList_mapM, StateT.run_map, Except.map_eq_ok]
  constructor
  · rintro ⟨⟨values, rest⟩, hrun, rfl⟩
    exact ⟨rest, by rw [hrun, Except.map_ok]⟩
  · rintro ⟨rest, h⟩
    obtain ⟨⟨values, rest'⟩, hrun, hpair⟩ := Except.map_eq_ok.1 h
    exact ⟨(values, rest'), hrun, Vector.toList_inj.1 (Prod.mk.inj hpair).1⟩

/-- The record of fields that fit is the number of the fields. -/
theorem exists_encode_eq_digits {l : RecordLayout n} {fields : Vector UInt64 n} (hl : l.WithinWord)
    (hfit : ∀ f ∈ l.named fields, f.2.2.toNat < 2 ^ f.2.1.toNat) :
    ∃ raw, l.encode fields = .ok raw ∧ raw.toNat = digits (l.named fields) := by
  have hspan : 0 + span ((l.named fields).map (·.2.1)) ≤ 64 := by
    rw [map_width_named, Nat.zero_add]
    exact hl
  obtain ⟨raw, hraw, hnat⟩ := exists_encodeFields hspan hfit
  exact ⟨raw, hraw, by rw [hnat, Nat.pow_zero, Nat.one_mul]⟩

/-- Fields that were put together fit, and their record is their number. -/
theorem encode_eq_ok {l : RecordLayout n} {fields : Vector UInt64 n} {raw : UInt64}
    (hl : l.WithinWord) (h : l.encode fields = .ok raw) :
    (∀ f ∈ l.named fields, f.2.2.toNat < 2 ^ f.2.1.toNat) ∧
      raw.toNat = digits (l.named fields) := by
  have hfit : ∀ f ∈ l.named fields, f.2.2.toNat < 2 ^ f.2.1.toNat := fits_of_encodeFields h
  obtain ⟨raw', hraw', hnat⟩ := exists_encode_eq_digits hl hfit
  obtain rfl := Except.ok.inj (h.symm.trans hraw')
  exact ⟨hfit, hnat⟩

/-- A record that was put together is taken apart into its fields. -/
theorem decode_of_encode {l : RecordLayout n} {fields : Vector UInt64 n} {raw : UInt64}
    (hl : l.WithinWord) (h : l.encode fields = .ok raw) : l.decode raw = .ok fields := by
  obtain ⟨hfit, hraw⟩ := encode_eq_ok hl h
  obtain ⟨rest, hrun⟩ := run_mapM_takeField (by rw [map_width_named]; exact hl) hfit hraw
  rw [map_width_named, map_value_named] at hrun
  exact decode_eq_ok_iff.2 ⟨rest, hrun⟩

/-- A record is below the limit of the widths together. -/
theorem lt_of_encode {l : RecordLayout n} {fields : Vector UInt64 n} {raw : UInt64}
    (hl : l.WithinWord) (h : l.encode fields = .ok raw) :
    raw.toNat < 2 ^ span l.widths.toList := by
  obtain ⟨hfit, hraw⟩ := encode_eq_ok hl h
  have hlt := digits_lt hfit
  rwa [map_width_named, ← hraw] at hlt

/-! ## Widths -/

theorem span_le {widths : List UInt32} {k : Nat} (h : ∀ w ∈ widths, w.toNat ≤ k) :
    span widths ≤ k * widths.length := by
  induction widths with
  | nil => simp
  | cons w ws ih =>
    have hw := h w (by simp)
    have hrest := ih fun w hw => h w (by simp [hw])
    rw [span_cons, List.length_cons, Nat.mul_succ]
    omega

/-- The sum of widths of some bits at most is a 32-bit number, unless they are many. -/
theorem span_lt {widths : Vector UInt32 n} {k : Nat} (hn : k * n < halfLimit)
    (h : ∀ w ∈ widths.toList, w.toNat ≤ k) : span widths.toList < halfLimit := by
  have hle := span_le h
  rw [Vector.length_toList] at hle
  exact hle.trans_lt hn

/-- Widths are added up as long as the sum is a 32-bit number. -/
theorem foldlM_add_eq_ok {widths : List UInt32} {sum : Nat} (h : sum + span widths < halfLimit) :
    widths.foldlM (fun sum width => Checked.add halfLimit sum width.toNat) sum =
      .ok (sum + span widths) := by
  induction widths generalizing sum with
  | nil => rfl
  | cons w ws ih =>
    rw [span_cons] at h
    rw [List.foldlM_cons, Checked.add_eq_ok (by omega), Except.ok_bind, ih (by omega), span_cons,
      Nat.add_assoc]

theorem foldlM_add_eq_error {widths : List UInt32} {sum : Nat} (hsum : sum < halfLimit)
    (h : halfLimit ≤ sum + span widths) :
    ∃ m n, widths.foldlM (fun sum width => Checked.add halfLimit sum width.toNat) sum =
      .error (.sum m n) := by
  induction widths generalizing sum with
  | nil => exact absurd hsum (Nat.not_lt.2 h)
  | cons w ws ih =>
    rw [span_cons, ← Nat.add_assoc] at h
    rw [List.foldlM_cons]
    rcases Nat.lt_or_ge (sum + w.toNat) halfLimit with hlt | hge
    · rw [Checked.add_eq_ok hlt]
      exact ih hlt h
    · exact ⟨sum, w.toNat, by rw [Checked.add_eq_error hge]; rfl⟩

theorem total_eq_ok {widths : List UInt32} (h : span widths < halfLimit) :
    total widths = .ok (span widths) := by
  have hsum := @foldlM_add_eq_ok widths 0 (by rwa [Nat.zero_add])
  rwa [Nat.zero_add] at hsum

/-- A sum of widths that is no 32-bit number is out of range. -/
theorem exists_total_eq_error {widths : List UInt32} (h : halfLimit ≤ span widths) :
    ∃ m n, total widths = .error (.sum m n) :=
  foldlM_add_eq_error (by decide) (by rwa [Nat.zero_add])

section OfWidths

variable {names : Vector String n} {widths : Vector UInt32 n} {l : RecordLayout n}

/-- Widths whose sum is a 32-bit number are refused if it is more than a word. -/
theorem ofWidths_of_span_lt (h : span widths.toList < halfLimit) :
    ofWidths names widths = if wordBits < span widths.toList then .error .layoutTooWide
      else .ok ⟨names, widths⟩ := by
  rw [ofWidths, total_eq_ok h, Checked.liftM_ok, Except.ok_bind]
  split <;> rfl

theorem exists_ofWidths_eq_outOfRange (h : halfLimit ≤ span widths.toList) :
    ∃ m n, ofWidths names widths = .error (.outOfRange (.sum m n)) := by
  obtain ⟨m, n, htotal⟩ := exists_total_eq_error h
  exact ⟨m, n, by rw [ofWidths, htotal]; rfl⟩

theorem ofWidths_eq_ok_iff :
    ofWidths names widths = .ok l ↔ span widths.toList ≤ 64 ∧ l = ⟨names, widths⟩ := by
  rcases Nat.lt_or_ge (span widths.toList) halfLimit with hlt | hge
  · rw [ofWidths_of_span_lt hlt]
    split
    next h => exact iff_of_false nofun fun hl => absurd h (Nat.not_lt.2 hl.1)
    next h =>
      rw [and_iff_right (show span widths.toList ≤ 64 from Nat.not_lt.1 h)]
      exact ⟨fun h => (Except.ok.inj h).symm, fun h => congrArg _ h.symm⟩
  · obtain ⟨m, k, h⟩ := @exists_ofWidths_eq_outOfRange n names widths hge
    rw [h]
    exact iff_of_false nofun fun hl => absurd (hge.trans hl.1) (by decide)

/-- The parts of a layout that was made from widths, which lies within a word. -/
theorem of_ofWidths (h : ofWidths names widths = .ok l) :
    l.names = names ∧ l.widths = widths ∧ l.WithinWord := by
  obtain ⟨hspan, rfl⟩ := ofWidths_eq_ok_iff.1 h
  exact ⟨rfl, rfl, hspan⟩

end OfWidths

/-- The sum of widths within a word is told as it is. -/
theorem totalWidth_eq_ok {l : RecordLayout n} (hl : l.WithinWord) :
    l.totalWidth = .ok (span l.widths.toList) :=
  total_eq_ok (hl.trans_lt (by decide))

theorem ofWidths_of_withinWord {l : RecordLayout n} (hl : l.WithinWord) :
    ofWidths l.names l.widths = .ok l :=
  ofWidths_eq_ok_iff.2 ⟨hl, rfl⟩

/-- No width within a word is greater than a word. -/
theorem WithinWord.width_le {l : RecordLayout n} (hl : l.WithinWord) {i : Nat} (hi : i < n) :
    l.widths[i].toNat ≤ 64 :=
  (List.single_le_sum (by simp) _ (List.mem_map_of_mem (by simp))).trans hl

/-- No value needs more than a word. -/
theorem width_le_of_fitted {greatest : Vector UInt64 n} {w : UInt32}
    (h : w ∈ (greatest.map fun value => UInt32.ofNat (bitWidth value)).toList) : w.toNat ≤ 64 := by
  rw [Vector.toList_map] at h
  obtain ⟨value, -, rfl⟩ := List.mem_map.1 h
  exact (toNat_ofNat_bitWidth value).trans_le (bitWidth_le value)

/-- A fitting layout has the widths of the greatest values, and lies within a word. -/
theorem fitting_eq_ok {names : Vector String n} {greatest : Vector UInt64 n}
    {l : RecordLayout n} (h : fitting names greatest = .ok l) :
    l.names = names ∧ l.widths = greatest.map (fun value => UInt32.ofNat (bitWidth value)) ∧
      l.WithinWord :=
  of_ofWidths h

/-- A fitting layout has the given names, and lies within a word. -/
theorem names_of_fitting {names : Vector String n} {greatest : Vector UInt64 n}
    {l : RecordLayout n} (h : fitting names greatest = .ok l) :
    l.names = names ∧ l.WithinWord := by
  obtain ⟨hnames, -, hwithin⟩ := fitting_eq_ok h
  exact ⟨hnames, hwithin⟩

/-! ## Headers -/

theorem toInt_ofInt_of_le {w : Nat} (h : w ≤ 64) : (Int8.ofInt w).toInt = w := by
  exact Int8.toInt_ofInt_of_le (by omega) (by omega)

theorem headerWidth_ofInt (name : String) {w : UInt32} (h : w.toNat ≤ 64) :
    headerWidth name (Int8.ofInt w.toNat) = .ok w := by
  have hint := toInt_ofInt_of_le h
  rw [headerWidth, if_neg]
  · rw [hint, Int.toNat_natCast, UInt32.ofNat_toNat]
  · rw [Int8.lt_iff_toInt_lt, hint]
    simp

theorem vector_mapM_eq_ok {α β ε : Type} {f : α → Except ε β} {xs : Vector α n} {ys : Vector β n}
    (h : ∀ i (hi : i < n), f xs[i] = .ok ys[i]) : xs.mapM f = .ok ys := by
  have hlist : xs.toList.mapM f = .ok ys.toList := by
    rw [mapM_eq_ok_iff, List.forall₂_iff_get]
    refine ⟨by simp, fun i hi _ => ?_⟩
    simpa using h i (by simpa using hi)
  rw [← toList_mapM] at hlist
  obtain ⟨zs, hzs, hz⟩ := Except.map_eq_ok.1 hlist
  rw [hzs, Vector.toList_inj.1 hz]

/-- The header of a layout gives back the layout. -/
theorem ofHeader_headerWidths {l : RecordLayout n} (hl : l.WithinWord) :
    ofHeader l.names l.headerWidths = .ok l := by
  refine Except.bind_eq_ok.2 ⟨l.widths, ?_, ofWidths_of_withinWord hl⟩
  apply vector_mapM_eq_ok
  intro i hi
  simpa [headerWidths] using headerWidth_ofInt l.names[i] (hl.width_le hi)

theorem twoFields_pairOf {α : Type} (v : Vector α 2) :
    twoFields (pairOf v).1 (pairOf v).2 = v := by
  ext i hi
  rcases i with _ | _ | i
  · rfl
  · rfl
  · omega

theorem threeFields_tripleOf {α : Type} (v : Vector α 3) :
    threeFields (tripleOf v).1 (tripleOf v).2.1 (tripleOf v).2.2 = v := by
  ext i hi
  rcases i with _ | _ | _ | i
  · rfl
  · rfl
  · rfl
  · omega

theorem fourFields_quadrupleOf {α : Type} (v : Vector α 4) :
    fourFields (quadrupleOf v).1 (quadrupleOf v).2.1 (quadrupleOf v).2.2.1 (quadrupleOf v).2.2.2 =
      v := by
  ext i hi
  rcases i with _ | _ | _ | _ | i
  · rfl
  · rfl
  · rfl
  · rfl
  · omega

theorem tripleOf_map {α β : Type} (f : α → β) (v : Vector α 3) :
    tripleOf (v.map f) = (f (tripleOf v).1, f (tripleOf v).2.1, f (tripleOf v).2.2) := by
  simp [tripleOf]

theorem ofHeader_twoFields {names : Vector String 2} {l : RecordLayout 2}
    (hl : l.names = names ∧ l.WithinWord) :
    ofHeader names (twoFields (pairOf l.headerWidths).1 (pairOf l.headerWidths).2) = .ok l := by
  obtain ⟨rfl, hwithin⟩ := hl
  rw [twoFields_pairOf]
  exact ofHeader_headerWidths hwithin

theorem ofHeader_threeFields {names : Vector String 3} {l : RecordLayout 3}
    (hl : l.names = names ∧ l.WithinWord) :
    ofHeader names (threeFields (tripleOf l.headerWidths).1 (tripleOf l.headerWidths).2.1
      (tripleOf l.headerWidths).2.2) = .ok l := by
  obtain ⟨rfl, hwithin⟩ := hl
  rw [threeFields_tripleOf]
  exact ofHeader_headerWidths hwithin

theorem ofHeader_fourFields {names : Vector String 4} {l : RecordLayout 4}
    (hl : l.names = names ∧ l.WithinWord) :
    ofHeader names (fourFields (quadrupleOf l.headerWidths).1 (quadrupleOf l.headerWidths).2.1
      (quadrupleOf l.headerWidths).2.2.1 (quadrupleOf l.headerWidths).2.2.2) = .ok l := by
  obtain ⟨rfl, hwithin⟩ := hl
  rw [fourFields_quadrupleOf]
  exact ofHeader_headerWidths hwithin

end RecordLayout

end Paradigm
