import Mathlib
import Paradigm.Proofs.Outcome
import Paradigm.Storage.Run

/-!
# Lists that lie one after the other

Lists of different lengths are stored one after the other, each with the place where it begins.  The
elements of a list are then found from its place on.

## Main results

* `getElem?_flatMap`: the elements of lists that are put together
* `getElem?_flatten_of_place`: the elements of a list from its place on
* `exists_valuesFrom`, `valuesFrom_eq_ok`: reading numbered values one after the other
-/

namespace Paradigm

variable {α β ε : Type}

theorem getElem?_flatMap (f : α → List β) (as : List α) {i j : Nat} {a : α}
    (ha : as[i]? = some a) (hj : j < (f a).length) :
    (as.flatMap f)[((as.map fun a => (f a).length).take i).sum + j]? = (f a)[j]? := by
  induction as generalizing i with
  | nil => simp at ha
  | cons b as ih =>
    cases i with
    | zero =>
      obtain rfl : b = a := by simpa using ha
      rw [List.flatMap_cons, List.take_zero, List.sum_nil, Nat.zero_add,
        List.getElem?_append_left hj]
    | succ i =>
      rw [List.flatMap_cons, List.map_cons, List.take_succ_cons, List.sum_cons, Nat.add_assoc,
        List.getElem?_append_right (by omega), Nat.add_sub_cancel_left]
      exact ih (by simpa using ha)

/-! ## Places -/

/-- A list begins after the lists before it. -/
theorem getElem?_placesFrom (place : Nat) (ls : List (List α)) {i : Nat} (hi : i < ls.length) :
    (placesFrom place ls)[i]? = some (place + ((ls.map List.length).take i).sum) := by
  induction ls generalizing place i with
  | nil => simp at hi
  | cons l ls ih =>
    cases i with
    | zero => simp [placesFrom]
    | succ i =>
      rw [placesFrom, List.getElem?_cons_succ, ih _ (by simpa using hi)]
      simp [Nat.add_assoc]

/-- The elements of a list lie from its place on, also where others lie before all lists. -/
theorem getElem?_flatten_of_place {before : List α} {ls : List (List α)} {i j place : Nat}
    {l : List α} (hl : ls[i]? = some l) (hplace : (placesFrom before.length ls)[i]? = some place)
    (hj : j < l.length) : (before ++ ls.flatten)[place + j]? = l[j]? := by
  have hi := (List.getElem?_eq_some_iff.1 hl).1
  rw [getElem?_placesFrom _ ls hi] at hplace
  rw [← Option.some.inj hplace, ← List.flatMap_id, Nat.add_assoc,
    List.getElem?_append_right (Nat.le_add_right _ _), Nat.add_sub_cancel_left]
  exact getElem?_flatMap id ls hl hj

/-- A list ends within all of them. -/
theorem place_add_length_le {before : List α} {ls : List (List α)} {i place : Nat} {l : List α}
    (hl : ls[i]? = some l) (hplace : (placesFrom before.length ls)[i]? = some place) :
    place + l.length ≤ (before ++ ls.flatten).length := by
  obtain ⟨hi, rfl⟩ := List.getElem?_eq_some_iff.1 hl
  rw [getElem?_placesFrom _ ls hi] at hplace
  have hsum : ((ls.map List.length).take (i + 1)).sum ≤ (ls.map List.length).sum :=
    (List.take_sublist _ _).sum_le_sum fun _ _ => Nat.zero_le _
  rw [List.take_succ_eq_append_getElem (by simpa using hi), List.sum_append, List.sum_singleton,
    List.getElem_map] at hsum
  rw [List.length_append, List.length_flatten, ← Option.some.inj hplace, Nat.add_assoc]
  exact Nat.add_le_add_left hsum _

/-- A list is read back from its place among all. -/
theorem take_drop_flatten_of_place {ls : List (List α)} {i place : Nat} {l : List α}
    (hl : ls[i]? = some l) (hplace : (placesFrom 0 ls)[i]? = some place) :
    (ls.flatten.drop place).take l.length = l := by
  have hfirst : (placesFrom ([] : List α).length ls)[i]? = some place := hplace
  apply List.ext_getElem?
  intro j
  rcases Nat.lt_or_ge j l.length with hj | hj
  · rw [List.getElem?_take_of_lt hj, List.getElem?_drop]
    exact getElem?_flatten_of_place hl hfirst hj
  · rw [List.getElem?_eq_none hj, List.getElem?_eq_none]
    exact (List.length_take_le _ _).trans hj

/-! ## Numbered values -/

/-- Values that are all there are read one after the other. -/
theorem exists_valuesFrom {R : α → β → Prop} {f : Nat → Except ε α} {start : Nat} {bs : List β}
    (h : ∀ (j : Nat) b, bs[j]? = some b → ∃ a, f (start + j) = .ok a ∧ R a b) :
    ∃ as, valuesFrom f start bs.length = .ok as ∧ List.Forall₂ R as bs := by
  induction bs generalizing start with
  | nil => exact ⟨[], rfl, .nil⟩
  | cons b bs ih =>
    obtain ⟨a, ha, hab⟩ := h 0 b rfl
    obtain ⟨as, has, hrest⟩ : ∃ as, valuesFrom f (start + 1) bs.length = .ok as ∧
        List.Forall₂ R as bs := by
      apply ih
      intro j b hb
      rw [Nat.add_assoc, Nat.add_comm 1]
      exact h (j + 1) b hb
    refine ⟨a :: as, ?_, .cons hab hrest⟩
    rw [Nat.add_zero] at ha
    rw [List.length_cons, valuesFrom, ha, Except.ok_bind, has, Except.ok_bind]
    rfl

theorem valuesFrom_eq_ok {f : Nat → Except ε α} {start : Nat} {as : List α}
    (h : ∀ (j : Nat) a, as[j]? = some a → f (start + j) = .ok a) :
    valuesFrom f start as.length = .ok as := by
  obtain ⟨bs, hbs, heq⟩ := exists_valuesFrom (R := Eq) fun j a ha => ⟨a, h j a ha, rfl⟩
  rw [List.forall₂_eq_eq_eq] at heq
  rw [hbs, heq]

end Paradigm
