import Mathlib
import Paradigm.Store.Header

/-!
# Sections that are read back

The sections of a file have no index, so that a reader has to stop where the writer of the section
stopped.  A section is read back when a reader that starts at its place in any longer view gives the
value that was written and ends where the section ends; such readers compose like the writers do.

## Main definitions

* `Reads`: what a reader gives at a place of a view, and where it stops
* `ReadsBack`: what lies between two states of a writer is read back as a value

## Main results

* `ReadsBack.bind`: sections compose
* `readsBack_put`, `readsBack_putCount`, `readsBack_putAll`, `readsBack_padTo`: the steps of a
  writer with the steps of a reader that undo them
-/

namespace Paradigm

variable {α β : Type}

/-! ## Bytes of views and writers -/

@[simp] theorem View.length_toList (v : View) : v.toList.length = v.size := rfl

@[simp] theorem Writer.length_toList (w : Writer) : w.toList.length = w.position := rfl

@[simp] theorem Writer.toList_empty : Writer.empty.toList = [] := rfl

@[simp] theorem Writer.toList_toView (w : Writer) : w.toView.toList = w.toList := rfl

@[simp] theorem Writer.toList_append (w : Writer) (bytes : List UInt8) :
    (w.append bytes).toList = w.toList ++ bytes := by
  simp [Writer.append, Writer.toList]

theorem Writer.position_append (w : Writer) (bytes : List UInt8) :
    (w.append bytes).position = w.position + bytes.length := by
  rw [← Writer.length_toList, Writer.toList_append, List.length_append, Writer.length_toList]

theorem View.window_eq (v : View) (start length : Nat) :
    v.window start length = (v.toList.drop start).take length := by
  simp [View.window, View.toList, List.extract_eq_take_drop]

/-- A window over the bytes that were written last. -/
theorem View.window_of_append {v : View} {before bytes : List UInt8}
    (h : before ++ bytes <+: v.toList) : v.window before.length bytes.length = bytes := by
  obtain ⟨after, hv⟩ := h
  rw [View.window_eq, ← hv, List.append_assoc, List.drop_left, List.take_left]

/-! ## Reading at a place -/

/-- A reader goes on where the one before it stopped. -/
theorem Reader.bind_of_eq_ok {r : Reader α} {f : α → Reader β} {c mid : Cursor} {a : α}
    (h : r c = .ok a mid) : (r >>= f) c = f a mid := by
  show EStateM.bind r f c = _
  rw [EStateM.bind, h]

/-- At the place `p` of the view the reader gives `a` and stops at `q`. -/
def Reads (r : Reader α) (v : View) (p : Nat) (a : α) (q : Nat) : Prop :=
  ∀ hp : p ≤ v.size, ∃ hq : q ≤ v.size, r ⟨v, p, hp⟩ = .ok a ⟨v, q, hq⟩

theorem Reads.pure (a : α) (v : View) (p : Nat) : Reads (pure a) v p a p :=
  fun hp => ⟨hp, rfl⟩

theorem Reads.bind {r : Reader α} {f : α → Reader β} {v : View} {p q s : Nat} {a : α} {b : β}
    (hr : Reads r v p a q) (hf : Reads (f a) v q b s) : Reads (r >>= f) v p b s := by
  intro hp
  obtain ⟨hq, hra⟩ := hr hp
  obtain ⟨hs, hfb⟩ := hf hq
  exact ⟨hs, (Reader.bind_of_eq_ok hra).trans hfb⟩

theorem Reads.check {c : Except StorageError α} {a : α} (h : c = .ok a) (v : View) (p : Nat) :
    Reads (Reader.check c) v p a p := by
  subst h
  exact Reads.pure a v p

theorem Reads.advance {v : View} {p length : Nat} (h : p + length ≤ v.size) :
    Reads (Reader.advance length) v p p (p + length) :=
  fun _ => ⟨h, by rw [Reader.advance]; exact dif_pos h⟩

/-- Reading from the start of a view. -/
theorem Reads.run {r : Reader α} {v : View} {a : α} {q : Nat} (h : Reads r v 0 a q) :
    r.run v = .ok a := by
  obtain ⟨hq, hr⟩ := h (Nat.zero_le _)
  have hstart : EStateM.run r (.start v) = .ok a ⟨v, q, hq⟩ := hr
  rw [Reader.run, hstart]

/-! ## Sections -/

/-- What lies between two states of a writer is read back as `a` in every view that begins with the
bytes of the later state. -/
structure ReadsBack (out out' : Writer) (r : Reader α) (a : α) : Prop where
  grows : out.toList <+: out'.toList
  reads : ∀ v : View, out'.toList <+: v.toList → Reads r v out.position a out'.position

theorem ReadsBack.pure (out : Writer) (a : α) : ReadsBack out out (pure a) a :=
  ⟨List.prefix_rfl, fun v _ => Reads.pure a v _⟩

theorem ReadsBack.pure_of_eq {a b : α} (h : a = b) (out : Writer) :
    ReadsBack out out (Pure.pure a) b :=
  h ▸ ReadsBack.pure out a

/-- Sections compose. -/
theorem ReadsBack.bind {out mid out' : Writer} {r : Reader α} {f : α → Reader β} {a : α} {b : β}
    (hr : ReadsBack out mid r a) (hf : ReadsBack mid out' (f a) b) :
    ReadsBack out out' (r >>= f) b :=
  ⟨hr.grows.trans hf.grows, fun v hv =>
    (hr.reads v (hf.grows.trans hv)).bind (hf.reads v hv)⟩

/-- A reader may choose between two sections and go on in the same way after both. -/
theorem ReadsBack.ite_bind {out out' : Writer} {c : Prop} [Decidable c] {r s : Reader α}
    {f : α → Reader β} {b : β} (h : ReadsBack out out' ((if c then r else s) >>= f) b) :
    ReadsBack out out' (if c then r >>= f else s >>= f) b := by
  split at h
  · rename_i hc
    rwa [if_pos hc]
  · rename_i hc
    rwa [if_neg hc]

theorem ReadsBack.map {out out' : Writer} {r : Reader α} {a : α} (h : ReadsBack out out' r a)
    (f : α → β) : ReadsBack out out' (f <$> r) (f a) :=
  h.bind (f := fun a => Pure.pure (f a)) (ReadsBack.pure out' (f a))

theorem ReadsBack.check {c : Except StorageError α} {a : α} (h : c = .ok a) (out : Writer) :
    ReadsBack out out (Reader.check c) a :=
  ⟨List.prefix_rfl, fun v _ => Reads.check h v _⟩

/-- A reader may ask for the place where it stands. -/
theorem ReadsBack.get {out out' : Writer} {f : Cursor → Reader β} {g : Nat → Reader β} {b : β}
    (hf : ∀ c, f c = g c.position) (h : ReadsBack out out' (g out.position) b) :
    ReadsBack out out' (get >>= f) b := by
  refine ⟨h.grows, fun v hv hp => ?_⟩
  obtain ⟨hq, hr⟩ := h.reads v hv hp
  refine ⟨hq, ?_⟩
  show f ⟨v, out.position, hp⟩ ⟨v, out.position, hp⟩ = _
  rw [hf]
  exact hr

/-- A view of all that was written is read from its start. -/
theorem ReadsBack.run {out : Writer} {r : Reader α} {a : α} (h : ReadsBack .empty out r a) :
    r.run out.toView = .ok a :=
  (h.reads out.toView (by simp)).run

/-! ## Steps -/

theorem readsBack_take (out : Writer) (bytes : List UInt8) :
    ReadsBack out (out.append bytes) (Reader.take bytes.length) bytes := by
  refine ⟨by simp, fun v hv hp => ?_⟩
  rw [Writer.toList_append] at hv
  have hlen : out.position + bytes.length ≤ v.size := by
    simpa using hv.length_le
  rw [Writer.position_append]
  -- the place is moved first, and the window is taken over what was passed
  have hstart : Reads (Reader.advance bytes.length) v out.position out.position
      (out.position + bytes.length) := .advance hlen
  have hwindow : v.window out.position bytes.length = bytes := View.window_of_append hv
  refine (hstart.bind fun hq => ⟨hq, ?_⟩) hp
  show EStateM.Result.ok (v.window out.position bytes.length) _ = _
  rw [hwindow]

theorem readsBack_skip (out : Writer) (bytes : List UInt8) :
    ReadsBack out (out.append bytes) (Reader.skip bytes.length) () := by
  refine ⟨by simp, fun v hv => ?_⟩
  have hlen : out.position + bytes.length ≤ v.size := by
    simpa [Writer.toList_append] using hv.length_le
  rw [Writer.position_append]
  exact (Reads.advance hlen).bind (Reads.pure () v _)

variable [FixedInt α]

theorem readsBack_put (out : Writer) (a : α) : ReadsBack out (out.put a) (Reader.read α) a := by
  have h := (readsBack_take out (FixedInt.toBytes a)).map (FixedInt.ofBytes (α := α))
  rw [FixedInt.length_toBytes, FixedInt.ofBytes_toBytes] at h
  exact h

theorem toInt_ofNat_of_lt {n : Nat} (h : n < countLimit) : (Int32.ofNat n).toInt = n := by
  rw [countLimit] at h
  exact Int32.toInt_ofNat_of_lt (by omega)

/-- A number of elements that was written is read back. -/
theorem readsBack_putCount {out out' : Writer} {n : Nat} (h : out.putCount n = .ok out') :
    ReadsBack out out' Reader.readCount n := by
  rw [Writer.putCount] at h
  split at h
  · rename_i hn
    obtain rfl : out.put (Int32.ofNat n) = out' := Except.ok.inj h
    have hnat : (Int32.ofNat n).toInt = n := toInt_ofNat_of_lt hn
    refine (readsBack_put out (Int32.ofNat n)).bind ?_
    -- a count that was written is not negative, so that the check of the reader passes
    have hneg : ¬ Int32.ofNat n < 0 := by
      rw [Int32.lt_iff_toInt_lt, hnat]
      simp
    rw [if_neg hneg]
    show ReadsBack _ _ (Pure.pure (Int32.ofNat n).toInt.toNat) n
    rw [hnat]
    exact ReadsBack.pure _ _
  · cases h

theorem split_flatMap_toBytes (as : List α) :
    FixedInt.split α as.length (as.flatMap FixedInt.toBytes) = as := by
  induction as with
  | nil => rfl
  | cons a as ih =>
    have hlen : (FixedInt.toBytes a).length = FixedInt.size α := FixedInt.length_toBytes a
    rw [List.length_cons, FixedInt.split, List.flatMap_cons, List.take_left' hlen,
      List.drop_left' hlen, ih, FixedInt.ofBytes_toBytes]

theorem length_flatMap_toBytes (as : List α) :
    (as.flatMap FixedInt.toBytes).length = as.length * FixedInt.size α := by
  induction as with
  | nil => simp
  | cons a as ih => simp [List.flatMap_cons, ih, Nat.add_mul, Nat.add_comm]

/-- Integers that were written are read back as a list. -/
theorem readsBack_putAll (out : Writer) (as : List α) :
    ReadsBack out (out.putAll as) (Reader.readArray α as.length) as := by
  have h := (readsBack_take out (as.flatMap FixedInt.toBytes)).map (FixedInt.split α as.length)
  rw [length_flatMap_toBytes, split_flatMap_toBytes] at h
  exact h

/-- Integers that were written are read back as a vector. -/
theorem readsBack_putVector {n : Nat} (out : Writer) (as : Vector α n) :
    ReadsBack out (out.putAll as.toList) (Reader.readVector α n) as := by
  have h := (readsBack_take out (as.toList.flatMap FixedInt.toBytes)).map fun bytes =>
    (⟨(FixedInt.split α n bytes).toArray, by simp⟩ : Vector α n)
  rw [length_flatMap_toBytes, Vector.length_toList] at h
  -- the reader builds the vector from the same list, with a proof of its length
  refine (congrArg (ReadsBack out (out.putAll as.toList) (Reader.readVector α n)) ?_).mp h
  have hsplit := split_flatMap_toBytes as.toList
  rw [Vector.length_toList] at hsplit
  apply Vector.toList_inj.1
  simpa [Vector.toList] using hsplit

/-- The zeros up to an aligned place are passed over. -/
theorem readsBack_padTo (out : Writer) (align : Nat) :
    ReadsBack out (out.padTo align) (Reader.skipPadding align) () := by
  -- the length of the padding depends on the place only
  refine ReadsBack.get (g := fun p => Reader.skip (paddingFor p align)) (fun _ => rfl) ?_
  have h := readsBack_skip out (List.replicate (paddingFor out.position align) 0)
  rw [List.length_replicate] at h
  exact h

/-- A version that was written is accepted. -/
theorem readsBack_putVersion (out : Writer) (version : Int64) :
    ReadsBack out (out.putVersion version) (Reader.readVersion version) () := by
  apply (readsBack_put out version).bind
  rw [if_neg fun hne => hne rfl]
  apply (readsBack_put _ byteOrderMark).bind
  rw [if_neg fun hne => hne rfl]
  exact ReadsBack.pure _ _

end Paradigm
