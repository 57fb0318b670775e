import Mathlib
import Paradigm.Error

/-!
# Outcomes that succeed

A computation that may fail succeeds when all of its steps do, and its value is then put together
from theirs.

## Main results

* `Except.bind_eq_ok`, `Except.map_eq_ok`: the steps of a computation that succeeds
* `mapM_eq_ok_iff`: a function mapped over a list
* `liftM_eq_ok`: a failure of stored data passed on as a failure of the engine
* `Checked.liftM_eq_ok`: a number out of range passed on as a failure of stored data
-/

namespace Paradigm

variable {ε α β : Type}

theorem Except.bind_eq_ok {x : Except ε α} {f : α → Except ε β} {b : β} :
    x >>= f = .ok b ↔ ∃ a, x = .ok a ∧ f a = .ok b := by
  cases x with
  | error e => simp [bind, Except.bind]
  | ok a => simp [bind, Except.bind]

theorem Except.map_eq_ok {x : Except ε α} {f : α → β} {b : β} :
    f <$> x = .ok b ↔ ∃ a, x = .ok a ∧ f a = b := by
  cases x with
  | error e => simp [Functor.map, Except.map]
  | ok a => simp [Functor.map, Except.map]

theorem Except.map_eq_error {x : Except ε α} {f : α → β} {e : ε} :
    f <$> x = .error e ↔ x = .error e := by
  cases x with
  | error e' => simp [Functor.map, Except.map]
  | ok a => simp [Functor.map, Except.map]

/-- What is found stays the same, or nothing is found. -/
theorem Except.map_optionMap_eq_self_iff {x : Except ε (Option α)} {f : α → α} :
    Option.map f <$> x = x ↔ ∀ a, x = .ok (some a) → f a = a := by
  cases x with
  | error e => simp [Functor.map, Except.map]
  | ok found? => cases found? <;> simp [Functor.map, Except.map]

@[simp] theorem Except.ok_bind (a : α) (f : α → Except ε β) : Except.ok a >>= f = f a := rfl

@[simp] theorem Except.error_bind (e : ε) (f : α → Except ε β) :
    (Except.error e : Except ε α) >>= f = .error e := rfl

@[simp] theorem Except.map_ok (a : α) (f : α → β) :
    f <$> (Except.ok a : Except ε α) = .ok (f a) := rfl

@[simp] theorem Except.pure_eq_ok (a : α) : (pure a : Except ε α) = .ok a := rfl

@[simp] theorem Except.throw_eq_error (e : ε) : (throw e : Except ε α) = .error e := rfl

theorem exists_eq_ok_of_isOk {x : Except ε α} (h : x.isOk) : ∃ a, x = .ok a := by
  cases x with
  | error e => cases h
  | ok a => exact ⟨a, rfl⟩

/-- What does not fail succeeds. -/
theorem exists_eq_ok_of_ne_error {x : Except ε α} (h : ∀ e, x ≠ .error e) : ∃ a, x = .ok a := by
  cases x with
  | error e => exact absurd rfl (h e)
  | ok a => exact ⟨a, rfl⟩

/-- A mapped function succeeds when it does on every element. -/
theorem mapM_eq_ok_iff {f : α → Except ε β} {xs : List α} {ys : List β} :
    xs.mapM f = .ok ys ↔ List.Forall₂ (fun x y => f x = .ok y) xs ys := by
  induction xs generalizing ys with
  | nil => simp [eq_comm]
  | cons x xs ih =>
    rw [List.mapM_cons, Except.bind_eq_ok]
    constructor
    · rintro ⟨y, hy, h⟩
      obtain ⟨zs, hzs, h⟩ := Except.bind_eq_ok.1 h
      obtain rfl : y :: zs = ys := Except.ok.inj h
      exact .cons hy (ih.1 hzs)
    · rintro (_ | ⟨hy, hys⟩)
      rename_i y ys
      exact ⟨y, hy, Except.bind_eq_ok.2 ⟨ys, ih.2 hys, rfl⟩⟩

theorem mapM_eq_ok_map {f : α → Except ε β} {g : α → β} {xs : List α}
    (h : ∀ x ∈ xs, f x = .ok (g x)) : xs.mapM f = .ok (xs.map g) := by
  rw [mapM_eq_ok_iff, List.forall₂_map_right_iff, List.forall₂_same]
  exact h

/-- The values are those of a function that agrees with all outcomes. -/
theorem eq_map_of_mapM_eq_ok {f : α → Except ε β} {g : α → β} {xs : List α} {ys : List β}
    (h : xs.mapM f = .ok ys) (hg : ∀ x ∈ xs, ∀ y, f x = .ok y → y = g x) : ys = xs.map g := by
  have hall := mapM_eq_ok_iff.1 h
  clear h
  induction hall with
  | nil => rfl
  | cons hxy _ ih =>
    rw [List.map_cons, hg _ List.mem_cons_self _ hxy,
      ih fun x hx => hg x (List.mem_cons_of_mem _ hx)]

theorem length_of_mapM_eq_ok {f : α → Except ε β} {xs : List α} {ys : List β}
    (h : xs.mapM f = .ok ys) : ys.length = xs.length :=
  (mapM_eq_ok_iff.1 h).length_eq.symm

theorem getElem_of_mapM_eq_ok {f : α → Except ε β} {xs : List α} {ys : List β}
    (h : xs.mapM f = .ok ys) {i : Nat} (hx : i < xs.length) (hy : i < ys.length) :
    f xs[i] = .ok ys[i] :=
  (mapM_eq_ok_iff.1 h).get hx hy

theorem mem_iff_of_mapM_eq_ok {f : α → Except ε β} {xs : List α} {ys : List β}
    (h : xs.mapM f = .ok ys) {y : β} : y ∈ ys ↔ ∃ x ∈ xs, f x = .ok y := by
  have hall := mapM_eq_ok_iff.1 h
  clear h
  induction hall with
  | nil => simp
  | cons hxy _ ih => simp [ih, hxy, eq_comm]

/-- A function that succeeds on all elements of a related list can be mapped over it. -/
theorem exists_mapM_eq_ok {γ : Type} {f : β → Except ε γ} {R : α → γ → Prop} {xs : List α}
    {ys : List β} (h : List.Forall₂ (fun x y => ∃ z, f y = .ok z ∧ R x z) xs ys) :
    ∃ zs, ys.mapM f = .ok zs ∧ List.Forall₂ R xs zs := by
  induction h with
  | nil => exact ⟨[], rfl, .nil⟩
  | cons hxy _ ih =>
    obtain ⟨z, hz, hxz⟩ := hxy
    obtain ⟨zs, hzs, hall⟩ := ih
    refine ⟨z :: zs, ?_, .cons hxz hall⟩
    rw [List.mapM_cons, hz, Except.ok_bind, hzs]
    rfl

/-- A failure of stored data is passed on as one of the engine. -/
theorem liftM_eq_ok {x : Except StorageError α} {a : α} :
    (liftM x : Except Error α) = .ok a ↔ x = .ok a := by
  cases x with
  | error e => simp [liftM, monadLift, MonadLift.monadLift, Except.mapError]
  | ok a => simp [liftM, monadLift, MonadLift.monadLift, Except.mapError]

@[simp] theorem liftM_ok (a : α) :
    (liftM (Except.ok a : Except StorageError α) : Except Error α) = .ok a := rfl

/-- A number out of range is passed on as a failure of stored data. -/
theorem Checked.liftM_eq_ok {x : Checked α} {a : α} :
    (liftM x : Except StorageError α) = .ok a ↔ x = .ok a := by
  cases x with
  | error e => simp [liftM, monadLift, MonadLift.monadLift, Except.mapError]
  | ok a => simp [liftM, monadLift, MonadLift.monadLift, Except.mapError]

@[simp] theorem Checked.liftM_ok (a : α) :
    (liftM (Except.ok a : Checked α) : Except StorageError α) = .ok a := rfl

@[simp] theorem Checked.liftM_error (fault : RangeFault) :
    (liftM (Except.error fault : Checked α) : Except StorageError α) =
      .error (.outOfRange fault) := rfl

end Paradigm
