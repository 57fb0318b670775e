import Mathlib
import Paradigm.Best

/-!
# What the best elements are

A relation that compares any two elements has best elements in every list that is not empty: those
that are at least as good as all others.  The selections give these.

## Main definitions

* `Ranks`: a relation by which any two elements can be compared
* `Leads`: what one pass for the elements of the greatest key knows

## Main results

* `mem_of_best?`, `best?_eq_none_iff`: a best element is one of the list, if there is any
* `Ranks.atLeast_of_best?`: a best element is at least as good as all others
* `Ranks.exists_eq_append_of_best?`: it is the first of these
* `Leads.meet`: what the pass knows when one more element is met
* `toList_foldl_meet`: the elements of the greatest key
-/

namespace Paradigm

variable {α : Type} {atLeast : α → α → Bool} {xs : List α} {a b : α}

/-- Any two elements can be compared, and what is at least as good as one is at least as good as all
that this one is. -/
structure Ranks (atLeast : α → α → Bool) : Prop where
  total : ∀ a b, atLeast a b ∨ atLeast b a
  trans : ∀ a b c, atLeast a b → atLeast b c → atLeast a c

theorem Ranks.refl (h : Ranks atLeast) (a : α) : atLeast a a := (h.total a a).elim id id

/-! ## One best element -/

theorem foldl_mem (atLeast : α → α → Bool) (x : α) (xs : List α) :
    xs.foldl (fun b y => if atLeast b y then b else y) x ∈ x :: xs := by
  induction xs generalizing x with
  | nil => exact List.mem_singleton_self x
  | cons y ys ih =>
    rw [List.foldl_cons]
    split
    · exact (List.cons_sublist_cons.2 (List.sublist_cons_self y ys)).mem (ih x)
    · exact List.mem_cons_of_mem x (ih y)

/-- What is kept is at least as good as all that was met. -/
theorem Ranks.foldl_atLeast (h : Ranks atLeast) (x : α) (xs : List α) :
    ∀ a ∈ x :: xs, atLeast (xs.foldl (fun b y => if atLeast b y then b else y) x) a := by
  induction xs generalizing x with
  | nil =>
    intro a ha
    obtain rfl := List.mem_singleton.1 ha
    exact h.refl a
  | cons y ys ih =>
    rw [List.forall_mem_cons, List.forall_mem_cons, List.foldl_cons]
    split
    -- the element that is not kept is beaten by the one that is
    · rename_i hxy
      obtain ⟨hx, hys⟩ := List.forall_mem_cons.1 (ih x)
      exact ⟨hx, h.trans _ _ _ hx hxy, hys⟩
    · rename_i hxy
      obtain ⟨hy, hys⟩ := List.forall_mem_cons.1 (ih y)
      exact ⟨h.trans _ _ _ hy ((h.total x y).resolve_left hxy), hy, hys⟩

theorem best?_eq_none_iff : best? atLeast xs = none ↔ xs = [] := by
  cases xs with
  | nil => simp [best?]
  | cons x xs => simp [best?]

theorem mem_of_best? (h : best? atLeast xs = some b) : b ∈ xs := by
  cases xs with
  | nil => cases h
  | cons x xs =>
    obtain rfl := Option.some.inj h
    exact foldl_mem atLeast x xs

theorem Ranks.atLeast_of_best? (h : Ranks atLeast) (hb : best? atLeast xs = some b) :
    ∀ a ∈ xs, atLeast b a := by
  cases xs with
  | nil => cases hb
  | cons x xs =>
    obtain rfl := Option.some.inj hb
    exact h.foldl_atLeast x xs

theorem best?_concat (atLeast : α → α → Bool) (xs : List α) (x : α) :
    best? atLeast (xs ++ [x]) = keepBest atLeast (best? atLeast xs) x := by
  cases xs with
  | nil => rfl
  | cons y ys => rw [List.cons_append, best?, List.foldl_concat, best?, keepBest]

/-- Of the elements with a property, the best ones when one more element is met. -/
theorem best?_filter_concat (atLeast : α → α → Bool) (p : α → Bool) (xs : List α) (x : α) :
    best? atLeast ((xs ++ [x]).filter p) =
      if p x then keepBest atLeast (best? atLeast (xs.filter p)) x
      else best? atLeast (xs.filter p) := by
  rw [List.filter_append]
  split
  · rename_i hx
    rw [List.filter_cons_of_pos hx, List.filter_nil, best?_concat]
  · rename_i hx
    rw [List.filter_cons_of_neg hx, List.filter_nil, List.append_nil]

/-- The best element that is found comes first: those before it are beaten by it, and those behind
it do not beat it. -/
theorem Ranks.exists_eq_append_of_best? (h : Ranks atLeast) (hb : best? atLeast xs = some b) :
    ∃ before after, xs = before ++ b :: after ∧ (∀ a ∈ before, ¬ atLeast a b) ∧
      ∀ a ∈ after, atLeast b a := by
  induction xs using List.reverseRecOn generalizing b with
  | nil => cases hb
  | append_singleton xs x ih =>
    rw [best?_concat] at hb
    cases hc : best? atLeast xs with
    | none =>
      rw [hc] at hb
      obtain rfl := Option.some.inj hb
      rw [best?_eq_none_iff.1 hc]
      exact ⟨[], [], rfl, by simp, by simp⟩
    | some c =>
      rw [hc, keepBest] at hb
      obtain rfl := Option.some.inj hb
      split
      · rename_i hcx
        obtain ⟨before, after, rfl, hbefore, hafter⟩ := ih hc
        refine ⟨before, after ++ [x], by simp, hbefore, ?_⟩
        intro a ha
        rcases List.mem_append.1 ha with ha | ha
        · exact hafter a ha
        · rwa [List.mem_singleton.1 ha]
      -- what is no better than the best before cannot beat what this one does not
      · rename_i hcx
        refine ⟨xs, [], rfl, ?_, by simp⟩
        intro a ha hax
        exact hcx (h.trans _ _ _ (h.atLeast_of_best? hc a ha) hax)

/-! ## All best elements -/

section Leaders

variable {κ : Type} [Ord κ] {key : α → κ} {found : Leaders κ α}

/-- What is known after some elements were met: nothing, or the greatest of their keys with those of
them that have it. -/
inductive Leads (key : α → κ) (xs : List α) : Leaders κ α → Prop where
  | start (eq_nil : xs = []) : Leads key xs .start
  | leading (k : κ) (elements : Array α) (exists_eq : ∃ x ∈ xs, key x = k)
      (isLE : ∀ x ∈ xs, (compare (key x) k).isLE)
      (toList_eq : elements.toList = xs.filter fun x => compare (key x) k = .eq) :
      Leads key xs ⟨some k, elements⟩

variable [Std.TransOrd κ]

/-- An element takes the place of all that were met before, since their keys are lower. -/
theorem leads_singleton (x : α) (hlt : ∀ y ∈ xs, compare (key y) (key x) = .lt) :
    Leads key (xs ++ [x]) ⟨some (key x), #[x]⟩ := by
  have hself : compare (key x) (key x) = .eq := Std.ReflOrd.compare_self
  refine .leading _ _ ⟨x, by simp, rfl⟩ ?_ ?_
  · intro y hy
    rcases List.mem_append.1 hy with hy | hy
    · rw [hlt y hy]
      rfl
    · rw [List.mem_singleton.1 hy, hself]
      rfl
  · have hnone : (xs.filter fun y => compare (key y) (key x) = .eq) = [] := by
      rw [List.filter_eq_nil_iff]
      intro y hy
      rw [hlt y hy]
      decide
    rw [List.filter_append, hnone, List.nil_append, List.filter_cons_of_pos (by simp),
      List.filter_nil]

/-- What is known when one more element is met. -/
theorem Leads.meet (h : Leads key xs found) (x : α) :
    Leads key (xs ++ [x]) (found.meet key x) := by
  cases h with
  | start hnil =>
    subst hnil
    exact leads_singleton x (by simp)
  | leading k elements hexists hle htoList =>
    have hexists' : ∃ y ∈ xs ++ [x], key y = k := by
      obtain ⟨y, hy, hyk⟩ := hexists
      exact ⟨y, List.mem_append_left _ hy, hyk⟩
    have hall (hxk : (compare (key x) k).isLE) : ∀ y ∈ xs ++ [x], (compare (key y) k).isLE := by
      rw [List.forall_mem_append]
      exact ⟨hle, List.forall_mem_singleton.2 hxk⟩
    rw [Leaders.meet, Option.map_some]
    cases hxk : compare (key x) k with
    | lt =>
      refine .leading k _ hexists' (hall (by rw [hxk]; rfl)) ?_
      rw [htoList, List.filter_append, List.filter_cons_of_neg (by simp [hxk]), List.filter_nil,
        List.append_nil]
    | eq =>
      refine .leading k _ hexists' (hall (by rw [hxk]; rfl)) ?_
      rw [Array.toList_push, htoList, List.filter_append, List.filter_cons_of_pos (by simp [hxk]),
        List.filter_nil]
    | gt =>
      have hkx : compare k (key x) = .lt := Std.OrientedCmp.gt_iff_lt.1 hxk
      exact leads_singleton x fun y hy => Std.TransCmp.lt_of_isLE_of_lt (hle y hy) hkx

theorem leads_foldl_meet (key : α → κ) (xs : List α) :
    Leads key xs (xs.foldl (Leaders.meet key) .start) := by
  induction xs using List.reverseRecOn with
  | nil => exact .start rfl
  | append_singleton xs x ih =>
    rw [List.foldl_concat]
    exact ih.meet x

/-- There are leaders if there are elements. -/
theorem toList_foldl_meet_eq_nil_iff (key : α → κ) (xs : List α) :
    (xs.foldl (Leaders.meet key) .start).elements.toList = [] ↔ xs = [] := by
  generalize hfound : xs.foldl (Leaders.meet key) .start = found
  have hleads := leads_foldl_meet key xs
  rw [hfound] at hleads
  cases hleads with
  | start hnil => exact iff_of_true rfl hnil
  | leading k elements hexists hle htoList =>
    obtain ⟨z, hz, rfl⟩ := hexists
    refine iff_of_false ?_ (List.ne_nil_of_mem hz)
    rw [htoList, List.filter_eq_nil_iff]
    intro hnone
    exact hnone z hz (by simp)

/-- **The leaders are the elements whose key no other one exceeds**, in their order. -/
theorem toList_foldl_meet (key : α → κ) (xs : List α) :
    (xs.foldl (Leaders.meet key) .start).elements.toList =
      xs.filter fun x => ∀ y ∈ xs, (compare (key y) (key x)).isLE := by
  generalize hfound : xs.foldl (Leaders.meet key) .start = found
  have hleads := leads_foldl_meet key xs
  rw [hfound] at hleads
  cases hleads with
  | start hnil =>
    subst hnil
    rfl
  | leading k elements hexists hle htoList =>
    obtain ⟨z, hz, rfl⟩ := hexists
    rw [htoList]
    apply List.filter_congr
    intro x hx
    rw [decide_eq_decide]
    constructor
    · intro heq y hy
      rw [Std.TransCmp.congr_right heq]
      exact hle y hy
    · intro hall
      exact Std.OrientedCmp.isLE_antisymm (hle x hx) (hall z hz)

end Leaders

/-! ## One element alone -/

theorem best?_singleton (atLeast : α → α → Bool) (a : α) : best? atLeast [a] = some a := rfl

end Paradigm
