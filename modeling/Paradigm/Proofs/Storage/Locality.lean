import Mathlib
import Paradigm.Proofs.Storage.Section

/-!
# Readers that look no further than they go

A reader that passes over a part of a view depends on the bytes up to the place where it stops.  On
a view that is cut before this place it fails because there is too little to read, and not for
another reason, since whatever it checks it has read before.  Readers with this property compose.

## Main definitions

* `Passes`: what a reader gives at a place follows from the bytes up to the place where it stops
* `Reader.Local`: a reader that looks no further than it goes
* `DecidedBy`: what is loaded from a file follows from its first bytes

## Main results

* `Passes.bind`, `Reader.Local.bind`: such readers compose
* `Reader.local_take`, `Reader.local_readArray`, `Reader.local_skipPadding`: the steps of readers
-/

namespace Paradigm

variable {α β : Type}

/-! ## Windows of two views -/

theorem View.length_take {v : View} {q : Nat} (hv : q ≤ v.size) : (v.toList.take q).length = q := by
  rw [List.length_take, View.length_toList, Nat.min_eq_left hv]

theorem View.window_congr {v w : View} {start length : Nat} (hv : start + length ≤ v.size)
    (h : v.toList.take (start + length) <+: w.toList) :
    w.window start length = v.window start length := by
  have htake : v.toList.take (start + length) = w.toList.take (start + length) := by
    have hprefix := List.prefix_iff_eq_take.1 h
    rwa [View.length_take hv] at hprefix
  have hwindow : ∀ bytes : List UInt8,
      (bytes.drop start).take length = (bytes.take (start + length)).drop start := by
    intro bytes
    rw [List.drop_take, Nat.add_sub_cancel_left]
  rw [View.window_eq, View.window_eq, hwindow, hwindow, htake]

/-- A view that begins like another one up to a place has the place. -/
theorem View.le_size_of_take {v w : View} {q : Nat} (hv : q ≤ v.size)
    (h : v.toList.take q <+: w.toList) : q ≤ w.size := by
  have hlength := h.length_le
  rwa [View.length_take hv] at hlength

/-! ## Steps of a reader -/

namespace Reader

theorem bind_eq_ok {r : Reader α} {f : α → Reader β} {c c' : Cursor} {b : β} :
    (r >>= f) c = .ok b c' ↔ ∃ a mid, r c = .ok a mid ∧ f a mid = .ok b c' := by
  show EStateM.bind r f c = _ ↔ _
  unfold EStateM.bind
  cases r c with
  | ok a mid => simp
  | error e mid => simp

theorem run_eq_ok {r : Reader α} {v : View} {a : α} :
    r.run v = .ok a ↔ ∃ c, r (.start v) = .ok a c := by
  have hrun : EStateM.run r (.start v) = r (.start v) := rfl
  rw [run, hrun]
  cases r (.start v) with
  | ok b c => simp
  | error e c => simp

theorem run_eq_error {r : Reader α} {v : View} {e : StorageError} {c : Cursor}
    (h : r (.start v) = .error e c) : r.run v = .error e := by
  have hrun : EStateM.run r (.start v) = .error e c := h
  rw [run, hrun]

theorem bind_eq_error {r : Reader α} {f : α → Reader β} {c c' : Cursor} {e : StorageError}
    (h : r c = .error e c') : (r >>= f) c = .error e c' := by
  show EStateM.bind r f c = _
  rw [EStateM.bind, h]

end Reader

/-- From the place `p` of the view the reader goes to `q` and gives `a`, in every view with the same
bytes up to `q`; in a view with fewer bytes it finds that it is too short. -/
structure Passes (r : Reader α) (v : View) (p : Nat) (a : α) (q : Nat) : Prop where
  le : p ≤ q
  extended : ∀ w : View, v.toList.take q <+: w.toList → Reads r w p a q
  truncated : ∀ w : View, w.toList <+: v.toList → w.size < q → ∀ hp : p ≤ w.size,
    ∃ expected c, r ⟨w, p, hp⟩ = .error (.tooShort expected w.size) c

namespace Passes

variable {r : Reader α} {f : α → Reader β} {v : View} {p q s : Nat} {a : α} {b : β}

theorem pure (a : α) (v : View) (p : Nat) : Passes (pure a) v p a p where
  le := le_rfl
  extended := fun w _ => Reads.pure a w p
  truncated := fun _ _ hlt hp => absurd hp (Nat.not_le.2 hlt)

/-- Readers that come one after the other. -/
theorem bind (hr : Passes r v p a q) (hf : Passes (f a) v q b s) :
    Passes (r >>= f) v p b s where
  le := hr.le.trans hf.le
  extended := by
    intro w hw
    have hshort : v.toList.take q <+: v.toList.take s := List.take_prefix_take_left hf.le
    exact (hr.extended w (hshort.trans hw)).bind (hf.extended w hw)
  truncated := by
    intro w hw hlt hp
    rcases Nat.lt_or_ge w.size q with hq | hq
    -- the view ends before the second reader begins
    · obtain ⟨expected, c, hc⟩ := hr.truncated w hw hq hp
      exact ⟨expected, c, Reader.bind_eq_error hc⟩
    · have hsame : v.toList.take q <+: w.toList := by
        rw [List.prefix_iff_eq_take.1 hw]
        exact List.take_prefix_take_left hq
      obtain ⟨hq', hread⟩ := hr.extended w hsame hp
      obtain ⟨expected, c, hc⟩ := hf.truncated w hw hlt hq'
      exact ⟨expected, c, (Reader.bind_of_eq_ok hread).trans hc⟩

end Passes

/-- A reader that looks no further than it goes. -/
def Reader.Local (r : Reader α) : Prop :=
  ∀ c a c', r c = .ok a c' → c'.view = c.view ∧ Passes r c.view c.position a c'.position

namespace Reader

/-! ## Readers that compose -/

section Composition

variable {r s : Reader α} {f : α → Reader β}

theorem local_pure (a : α) : Local (pure a : Reader α) := by
  intro c b c' h
  obtain ⟨rfl, rfl⟩ := EStateM.Result.ok.inj h
  exact ⟨rfl, Passes.pure a _ _⟩

theorem local_throw (e : StorageError) : Local (throw e : Reader α) := by
  intro c a c' h
  cases h

theorem local_check (x : Except StorageError α) : Local (check x) := by
  cases x with
  | ok a => exact local_pure a
  | error e => exact local_throw e

/-- Readers that come one after the other. -/
theorem Local.bind (hr : Local r) (hf : ∀ a, Local (f a)) : Local (r >>= f) := by
  intro c b c' h
  obtain ⟨a, mid, hmid, h⟩ := bind_eq_ok.1 h
  obtain ⟨hview, hpasses⟩ := hr c a mid hmid
  obtain ⟨hview', hpasses'⟩ := hf a mid b c' h
  rw [hview] at hview' hpasses'
  exact ⟨hview', hpasses.bind hpasses'⟩

theorem Local.map (hr : Local r) (f : α → β) : Local (f <$> r) :=
  hr.bind (f := fun a => pure (f a)) fun a => local_pure (f a)

theorem Local.ite {p : Prop} [Decidable p] (hr : Local r) (hs : Local s) :
    Local (if p then r else s) := by
  split
  · exact hr
  · exact hs

/-- A reader may refuse what it has read, and else go on. -/
theorem Local.ite_throw {p : Prop} [Decidable p] {e : StorageError} (hr : Local r) :
    Local (if p then throw e >>= fun (_ : PUnit) => r else r) :=
  ((local_throw e).bind fun _ => hr).ite hr

/-- A reader may choose between two readers and go on in the same way after both. -/
theorem Local.ite_bind {p : Prop} [Decidable p] (hr : Local r) (hs : Local s)
    (hf : ∀ a, Local (f a)) : Local (if p then r >>= f else s >>= f) :=
  (hr.bind hf).ite (hs.bind hf)

/-- A reader may ask for the place where it stands. -/
theorem local_get_bind {f : Cursor → Reader β} {g : Nat → Reader β}
    (hf : ∀ c, f c = g c.position) (hg : ∀ p, Local (g p)) : Local (get >>= f) := by
  -- at every cursor the reader is the one for the place
  have hsame : ∀ c : Cursor, (get >>= f) c = g c.position c := by
    intro c
    rw [← hf]
    rfl
  intro c b c' h
  rw [hsame] at h
  obtain ⟨hview, hpasses⟩ := hg c.position c b c' h
  refine ⟨hview, hpasses.le, fun w hw hp => ?_, fun w hw hlt hp => ?_⟩
  · rw [hsame]
    exact hpasses.extended w hw hp
  · rw [hsame]
    exact hpasses.truncated w hw hlt hp

end Composition

/-! ## Steps -/

theorem advance_eq_ok {length start : Nat} {c c' : Cursor} (h : advance length c = .ok start c') :
    start = c.position ∧ c'.view = c.view ∧ c'.position = c.position + length := by
  unfold advance at h
  dsimp only at h
  split at h
  · obtain ⟨rfl, rfl⟩ := EStateM.Result.ok.inj h
    exact ⟨rfl, rfl, rfl⟩
  · cases h

theorem advance_eq_error {length p : Nat} {v : View} (hp : p ≤ v.size) (h : v.size < p + length) :
    ∃ expected c, advance length ⟨v, p, hp⟩ = .error (.tooShort expected v.size) c :=
  ⟨_, _, dif_neg (Nat.not_le.2 h)⟩

theorem local_advance (length : Nat) : Local (advance length) := by
  intro c start c' h
  obtain ⟨rfl, hview, hposition⟩ := advance_eq_ok h
  have hstop : c.position + length ≤ c.view.size := hposition ▸ hview ▸ c'.position_le
  rw [hposition]
  refine ⟨hview, Nat.le_add_right _ _, ?_, ?_⟩
  · intro w hw
    exact Reads.advance (View.le_size_of_take hstop hw)
  · intro w _ hlt hp
    exact advance_eq_error hp hlt

/-- The bytes that are taken are those that are passed. -/
theorem local_take (length : Nat) : Local (take length) := by
  intro c bytes c' h
  obtain ⟨start, mid, hmid, h⟩ := bind_eq_ok.1 h
  obtain ⟨rfl, hview, hposition⟩ := advance_eq_ok hmid
  obtain ⟨rfl, rfl⟩ := EStateM.Result.ok.inj h
  have hstop : c.position + length ≤ c.view.size := hposition ▸ hview ▸ mid.position_le
  rw [hposition, hview]
  refine ⟨rfl, Nat.le_add_right _ _, ?_, ?_⟩
  · intro w hw
    refine (Reads.advance (View.le_size_of_take hstop hw)).bind fun hq => ⟨hq, ?_⟩
    show EStateM.Result.ok (w.window c.position length) _ = _
    rw [View.window_congr hstop hw]
  · intro w _ hlt hp
    obtain ⟨expected, mid', hmid'⟩ := advance_eq_error hp hlt
    exact ⟨expected, mid', bind_eq_error hmid'⟩

theorem local_skip (length : Nat) : Local (skip length) :=
  (local_advance length).bind fun _ => local_pure ()

theorem local_skipPadding (align : Nat) : Local (skipPadding align) :=
  local_get_bind (g := fun p => skip (paddingFor p align)) (fun _ => rfl) fun _ => local_skip _

section Integers

variable (α) [FixedInt α]

theorem local_read : Local (read α) := (local_take _).bind fun _ => local_pure _

theorem local_readArray (count : Nat) : Local (readArray α count) :=
  (local_take _).bind fun _ => local_pure _

theorem local_readVector (n : Nat) : Local (readVector α n) :=
  (local_take _).bind fun _ => local_pure _

end Integers

theorem local_readCount : Local readCount := by
  apply (local_read Int32).bind
  intro count
  exact (local_pure _).ite_throw

theorem local_readVersion (expected : Int64) : Local (readVersion expected) := by
  apply (local_read Int64).bind
  intro version
  apply Local.ite_throw
  apply (local_read Int16).bind
  intro mark
  exact (local_throw _).ite (local_pure ())

end Reader

/-! ## Files -/

/-- What is loaded from a file follows from its first `c` bytes: every file with the same first
bytes gives the same, and every file that ends before them is too short. -/
structure DecidedBy (load : View → Except StorageError α) (file : View) (a : α) (c : Nat) :
    Prop where
  le : c ≤ file.size
  extended : ∀ longer : View, file.toList.take c <+: longer.toList → load longer = .ok a
  truncated : ∀ cut : View, cut.toList <+: file.toList.take c → cut.size < c →
    ∃ expected, load cut = .error (.tooShort expected cut.size)

namespace DecidedBy

variable {load : View → Except StorageError α} {file : View} {a b : α} {c d : Nat}

/-- The bytes that decide are not those of a shorter file too. -/
theorem le_of_decidedBy (h : DecidedBy load file a c) (h' : DecidedBy load file b d) : d ≤ c := by
  by_contra hlt
  rw [Nat.not_le] at hlt
  -- the file that is cut behind the first bytes would be loaded and be too short
  have hcut : (View.ofList (file.toList.take c)).toList = file.toList.take c := by
    simp [View.ofList, View.toList]
  have hsize : (View.ofList (file.toList.take c)).size = c := by
    rw [← View.length_toList, hcut, View.length_take h.le]
  have hok := h.extended (View.ofList (file.toList.take c)) (by rw [hcut])
  obtain ⟨expected, herror⟩ := h'.truncated (View.ofList (file.toList.take c))
    (by rw [hcut]; exact List.take_prefix_take_left hlt.le) (by rwa [hsize])
  rw [hok] at herror
  cases herror

theorem unique (h : DecidedBy load file a c) (h' : DecidedBy load file b d) : c = d :=
  Nat.le_antisymm (h'.le_of_decidedBy h) (h.le_of_decidedBy h')

end DecidedBy

end Paradigm
