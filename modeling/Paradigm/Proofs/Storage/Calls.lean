import Mathlib
import Paradigm.Proofs.Storage.Locality

/-!
# What a call of a cursor does to its place

A call either passes over the bytes that it is about or finds that they are not there, and then the
cursor stays where it was.  There is one more exit: a number of elements is refused after its bytes
have been passed.

## Main definitions

* `Reader.Call`, `Reader.Call.run`: the calls of a cursor, and what they give as an `Answer`
* `Reader.Call.Covers`: where the bytes end that a call is about
* `Reader.PassesOver`: a reader passes over the bytes that follow, or stays

## Main results

* `isLeast_paddingFor`: padding ends at the next multiple
* `Reader.Call.run_outcome`: all that a call can do
-/

namespace Paradigm

variable {α β : Type}

/-- Padding ends at the first multiple from its start on. -/
theorem isLeast_paddingFor (p : Nat) {align : Nat} (h : 0 < align) :
    IsLeast {n | p ≤ n ∧ align ∣ n} (p + paddingFor p align) := by
  have hdiv := Nat.div_add_mod p align
  have hrest : p % align < align := Nat.mod_lt p h
  rw [paddingFor]
  rcases Nat.eq_zero_or_pos (p % align) with hzero | hpos
  · rw [hzero, Nat.sub_zero, Nat.mod_self, Nat.add_zero]
    exact ⟨⟨le_rfl, Nat.dvd_of_mod_eq_zero hzero⟩, fun n hn => hn.1⟩
  · rw [Nat.mod_eq_of_lt (Nat.sub_lt h hpos)]
    have hstop : p + (align - p % align) = align * (p / align + 1) := by
      rw [Nat.mul_succ]
      omega
    rw [hstop]
    refine ⟨⟨by rw [Nat.mul_succ]; omega, Nat.dvd_mul_right _ _⟩, ?_⟩
    -- a multiple that is not below the place is above the one below the place
    rintro n ⟨hn, m, rfl⟩
    apply Nat.mul_le_mul_left
    exact Nat.lt_of_mul_lt_mul_left (a := align) (by omega)

namespace Reader

/-! ## Steps that pass over bytes -/

/-- At the cursor the reader passes over the next `length` bytes, or there are fewer and it stays
where it is. -/
def PassesOver (r : Reader α) (length : Nat) (c : Cursor) : Prop :=
  (∃ a, ∃ hstop : c.position + length ≤ c.view.size,
    r c = .ok a ⟨c.view, c.position + length, hstop⟩) ∨
  (c.view.size < c.position + length ∧
    r c = .error (.tooShort (min (c.position + length) (addressLimit - 1)) c.view.size) c)

section PassesOver

variable {r : Reader α} {f : α → Reader β} {length : Nat} {c : Cursor}

/-- What comes behind a step may use the bytes that were passed, if it does not move. -/
theorem PassesOver.bind (hr : r.PassesOver length c)
    (hf : ∀ a mid, r c = .ok a mid → ∃ b, f a mid = .ok b mid) :
    (r >>= f).PassesOver length c := by
  obtain ⟨a, hstop, ha⟩ | ⟨hlt, herror⟩ := hr
  · obtain ⟨b, hb⟩ := hf a _ ha
    exact .inl ⟨b, hstop, bind_eq_ok.2 ⟨a, _, ha, hb⟩⟩
  · exact .inr ⟨hlt, bind_eq_error herror⟩

theorem PassesOver.map (hr : r.PassesOver length c) (g : α → β) :
    (g <$> r).PassesOver length c :=
  hr.bind (f := fun a => pure (g a)) fun a _ _ => ⟨g a, rfl⟩

theorem passesOver_advance (length : Nat) (c : Cursor) : (advance length).PassesOver length c := by
  rcases Nat.lt_or_ge c.view.size (c.position + length) with hlt | hle
  · exact .inr ⟨hlt, dif_neg (Nat.not_le.2 hlt)⟩
  · exact .inl ⟨c.position, hle, dif_pos hle⟩

theorem take_eq_ok (hstop : c.position + length ≤ c.view.size) :
    take length c =
      .ok (c.view.window c.position length) ⟨c.view, c.position + length, hstop⟩ :=
  bind_eq_ok.2 ⟨_, _, dif_pos hstop, rfl⟩

theorem read_eq_ok [FixedInt α] (hstop : c.position + FixedInt.size α ≤ c.view.size) :
    read α c = .ok (FixedInt.ofBytes (c.view.window c.position (FixedInt.size α)))
      ⟨c.view, c.position + FixedInt.size α, hstop⟩ :=
  bind_eq_ok.2 ⟨_, _, take_eq_ok hstop, rfl⟩

theorem passesOver_take (length : Nat) (c : Cursor) : (take length).PassesOver length c :=
  (passesOver_advance length c).bind fun _ _ _ => ⟨_, rfl⟩

theorem passesOver_read (α : Type) [FixedInt α] (c : Cursor) :
    (read α).PassesOver (FixedInt.size α) c :=
  (passesOver_take _ c).map _

theorem passesOver_readArray (α : Type) [FixedInt α] (count : Nat) (c : Cursor) :
    (readArray α count).PassesOver (count * FixedInt.size α) c :=
  (passesOver_take _ c).map _

/-- The bytes of a sub-view are passed before it is cut out, so that the cut does not fail. -/
theorem passesOver_subView (length : Nat) (c : Cursor) : (subView length).PassesOver length c := by
  apply (passesOver_advance length c).bind
  intro start mid hmid
  obtain ⟨rfl, hview, hposition⟩ := advance_eq_ok hmid
  have hstop : c.position + length ≤ mid.view.size := hposition ▸ mid.position_le
  obtain ⟨_, hcut⟩ := View.subView_eq_ok hstop
  obtain ⟨_, hcheck⟩ := Reads.check hcut mid.view mid.position mid.position_le
  exact ⟨_, hcheck⟩

theorem passesOver_readView (length : Nat) (c : Cursor) : (readView length).PassesOver length c :=
  (passesOver_subView length c).map _

theorem passesOver_readPlainArray (α : Type) [FixedInt α] (count : Nat) (c : Cursor) :
    (readPlainArray α count).PassesOver (count * FixedInt.size α) c :=
  (passesOver_subView _ c).bind fun _ _ _ => ⟨_, rfl⟩

theorem passesOver_skip (length : Nat) (c : Cursor) : (skip length).PassesOver length c :=
  (passesOver_advance length c).map _

theorem passesOver_skipPadding (align : Nat) (c : Cursor) :
    (skipPadding align).PassesOver (paddingFor c.position align) c :=
  passesOver_skip (paddingFor c.position align) c

/-- A negative number of elements is refused after its bytes have been passed. -/
theorem readCount_cases (c : Cursor) :
    readCount.PassesOver (FixedInt.size Int32) c ∨
      ∃ n : Int32, n < 0 ∧
        n = FixedInt.ofBytes (c.view.window c.position (FixedInt.size Int32)) ∧
        ∃ hstop : c.position + FixedInt.size Int32 ≤ c.view.size,
          readCount c = .error (.corrupt (.negativeCount n.toInt))
            ⟨c.view, c.position + FixedInt.size Int32, hstop⟩ := by
  obtain ⟨n, hstop, hread⟩ | ⟨hlt, hshort⟩ := passesOver_read Int32 c
  · by_cases hneg : n < 0
    · have hvalue := (EStateM.Result.ok.inj (hread.symm.trans (read_eq_ok hstop))).1
      refine .inr ⟨n, hneg, hvalue, hstop, ?_⟩
      rw [readCount, bind_of_eq_ok hread, if_pos hneg]
      rfl
    · refine .inl (.inl ⟨n.toInt.toNat, hstop, ?_⟩)
      rw [readCount, bind_of_eq_ok hread, if_neg hneg]
      rfl
  · exact .inl (.inr ⟨hlt, bind_eq_error hshort⟩)

end PassesOver

/-! ## Calls -/

/-- What a call gives. -/
inductive Answer where
  | value (kind : IntKind) (a : kind.Carrier)
  | values (kind : IntKind) (as : List kind.Carrier)
  | array (kind : IntKind) (a : PlainArray kind.Carrier)
  | count (n : Nat)
  | view (w : View)
  | nothing

/-- The calls of a cursor. -/
inductive Call where
  | read (kind : IntKind)
  | readCount
  | readArray (kind : IntKind) (count : Nat)
  | readPlainArray (kind : IntKind) (count : Nat)
  | readView (length : Nat)
  | skip (length : Nat)
  | skipPadding (align : Nat)

namespace Call

/-- What a call does at a cursor. -/
def run : Call → Reader Answer
  | read kind => .value kind <$> Reader.read kind.Carrier
  | readCount => .count <$> Reader.readCount
  | readArray kind count => .values kind <$> Reader.readArray kind.Carrier count
  | readPlainArray kind count => .array kind <$> Reader.readPlainArray kind.Carrier count
  | readView length => .view <$> Reader.readView length
  | skip length => (fun _ => .nothing) <$> Reader.skip length
  | skipPadding align => (fun _ => .nothing) <$> Reader.skipPadding align

/-- Places are aligned to multiples of a positive number. -/
def Allowed : Call → Prop
  | skipPadding align => 0 < align
  | _ => True

/-- The bytes that the call is about go from the place `p` to the place `q`. -/
def Covers (call : Call) (p q : Nat) : Prop :=
  match call with
  | read kind => q = p + FixedInt.size kind.Carrier
  | readCount => q = p + FixedInt.size Int32
  | readArray kind count | readPlainArray kind count => q = p + count * FixedInt.size kind.Carrier
  | readView length | skip length => q = p + length
  | skipPadding align => IsLeast {n | p ≤ n ∧ align ∣ n} q

/-- Every call but the one for a number of elements fails only if its bytes are not there. -/
theorem passesOver_run {call : Call} (hallowed : call.Allowed) (hcount : call ≠ readCount)
    (c : Cursor) : ∃ length, call.Covers c.position (c.position + length) ∧
      call.run.PassesOver length c := by
  cases call with
  | read kind => exact ⟨_, rfl, (passesOver_read _ c).map _⟩
  | readCount => exact absurd rfl hcount
  | readArray kind count => exact ⟨_, rfl, (passesOver_readArray _ count c).map _⟩
  | readPlainArray kind count => exact ⟨_, rfl, (passesOver_readPlainArray _ count c).map _⟩
  | readView length => exact ⟨_, rfl, (passesOver_readView length c).map _⟩
  | skip length => exact ⟨_, rfl, (passesOver_skip length c).map _⟩
  | skipPadding align =>
    exact ⟨_, isLeast_paddingFor c.position hallowed, (passesOver_skipPadding align c).map _⟩

/-- **All that a call can do.**  It passes exactly the bytes that it is about, or these are not all
there and the cursor stays where it was; only a negative number of elements is refused behind its
bytes. -/
theorem run_outcome (call : Call) (hallowed : call.Allowed) (c : Cursor) :
    ∃ q, call.Covers c.position q ∧
      ((∃ a, ∃ hq : q ≤ c.view.size, call.run c = .ok a ⟨c.view, q, hq⟩) ∨
        (c.view.size < q ∧
          call.run c = .error (.tooShort (min q (addressLimit - 1)) c.view.size) c) ∨
        (call = readCount ∧ ∃ n : Int32, n < 0 ∧
          n = FixedInt.ofBytes (c.view.window c.position (FixedInt.size Int32)) ∧
          ∃ hq : q ≤ c.view.size,
            call.run c = .error (.corrupt (.negativeCount n.toInt)) ⟨c.view, q, hq⟩)) := by
  by_cases hcount : call = readCount
  · subst hcount
    obtain h | ⟨n, hneg, hvalue, hstop, hrefused⟩ := readCount_cases c
    · have hrun : readCount.run.PassesOver (FixedInt.size Int32) c := h.map _
      exact ⟨_, rfl, hrun.imp_right .inl⟩
    · exact ⟨_, rfl, .inr (.inr ⟨rfl, n, hneg, hvalue, hstop, bind_eq_error hrefused⟩)⟩
  · obtain ⟨length, hcovers, h⟩ := passesOver_run hallowed hcount c
    exact ⟨_, hcovers, h.imp_right .inl⟩

/-- The view ends before the next multiple. -/
theorem run_outcome_padding_cut :
    let c : Cursor := ⟨.ofList [1, 2, 3, 4, 5], 3, by decide⟩
    (skipPadding 8).Allowed ∧ (skipPadding 8).run c = .error (.tooShort 8 5) c := by
  intro c
  have hallowed : (skipPadding 8).Allowed := Nat.zero_lt_succ 7
  obtain ⟨q, hcovers, h⟩ := run_outcome (skipPadding 8) hallowed c
  obtain rfl : q = 8 := hcovers.unique (isLeast_paddingFor 3 hallowed)
  have hsize : c.view.size = 5 := by decide
  obtain ⟨_, hq, _⟩ | ⟨_, hshort⟩ | ⟨hcount, _⟩ := h
  · omega
  · rw [hsize] at hshort
    exact ⟨hallowed, hshort⟩
  · cases hcount

/-- The four bytes of a negative number of elements are passed before it is refused. -/
theorem readCount_moves_when_refused :
    let c : Cursor := .start (.ofList [251, 255, 255, 255])
    ∃ c', readCount.run c = .error (.corrupt (.negativeCount (-5))) c' ∧
      c.position = 0 ∧ c'.position = 4 :=
  ⟨⟨.ofList [251, 255, 255, 255], 4, by decide⟩, rfl, rfl, rfl⟩

end Call

end Reader

end Paradigm
