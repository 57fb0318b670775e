import Mathlib

/-!
# Ordered lists without repetitions

Vocabularies are numbered by sorting them and leaving out what is repeated.  The number of an
element is then the number of distinct elements that come before it.

## Main results

* `mem_eraseReps_mergeSort`, `pairwise_eraseReps_mergeSort`: the members and the order of a sorted
  list without repetitions
* `filter_eq_take`, `countP_of_getElem?`: the position of an element is the number of those before it
* `getElem?_filter`: the position of an element among those that are kept
* `eq_of_pairwise_of_mem_iff`: lists in order with the same members
* `lookup_eq_some_iff_mem`: the value of a key
* `card_filter_toFinset`, `sum_filter_toFinset`: counting and adding up in an ordered list is
  counting and adding up over distinct elements
-/

namespace Paradigm

variable {α : Type}

/-! ## Repetitions -/

theorem eraseRepsBy_loop_eq (r : α → α → Bool) (a : α) (as acc : List α) :
    List.eraseRepsBy.loop r a as acc = acc.reverse ++ List.eraseRepsBy.loop r a as [] := by
  induction as generalizing a acc with
  | nil => simp [List.eraseRepsBy.loop]
  | cons b as ih =>
    simp only [List.eraseRepsBy.loop]
    split
    · exact ih a acc
    · rw [ih b (a :: acc), ih b [a]]
      simp

/-- A list that has no repetitions and nothing in common with an element and others goes on from
this element. -/
theorem nodup_cons_of_disjoint {a : α} {as met : List α} (ha : a ∉ met)
    (h : as.Nodup ∧ as.Disjoint (a :: met)) : (a :: as).Nodup ∧ (a :: as).Disjoint met := by
  obtain ⟨hnodup, hdisjoint⟩ := h
  rw [List.disjoint_cons_right] at hdisjoint
  rw [List.disjoint_cons_left]
  exact ⟨List.nodup_cons.2 ⟨hdisjoint.1, hnodup⟩, ha, hdisjoint.2⟩

section Repetitions

variable [BEq α] [LawfulBEq α]

omit [LawfulBEq α] in
theorem eraseReps_cons_cons (a b : α) (as : List α) :
    (a :: b :: as).eraseReps =
      if a == b then (a :: as).eraseReps else a :: (b :: as).eraseReps := by
  show List.eraseRepsBy.loop _ a (b :: as) [] = _
  rw [List.eraseRepsBy.loop]
  cases a == b
  · exact eraseRepsBy_loop_eq _ b as [a]
  · rfl

theorem mem_eraseReps {x : α} {as : List α} : x ∈ as.eraseReps ↔ x ∈ as := by
  match as with
  | [] => rfl
  | [a] => rfl
  | a :: b :: as =>
    rw [eraseReps_cons_cons]
    split
    · rename_i hab
      obtain rfl := eq_of_beq hab
      rw [@mem_eraseReps _ (a :: as)]
      simp
    · rw [List.mem_cons, @mem_eraseReps _ (b :: as), List.mem_cons, List.mem_cons, List.mem_cons]
  termination_by as.length

/-- Neighbours that repeat each other are all repetitions in a list in order. -/
theorem pairwise_eraseReps {r : α → α → Prop} (hanti : ∀ a b, r a b → r b a → a = b)
    {as : List α} (h : as.Pairwise r) : as.eraseReps.Pairwise fun a b => r a b ∧ a ≠ b := by
  match as with
  | [] => exact .nil
  | [a] => exact List.pairwise_singleton _ a
  | a :: b :: as =>
    obtain ⟨ha, htail⟩ := List.pairwise_cons.1 h
    rw [eraseReps_cons_cons]
    split
    · rename_i hab
      obtain rfl := eq_of_beq hab
      exact pairwise_eraseReps hanti htail
    · rename_i hab
      refine List.pairwise_cons.2 ⟨fun x hx => ?_, pairwise_eraseReps hanti htail⟩
      have hxb : x ∈ b :: as := mem_eraseReps.1 hx
      refine ⟨ha x hxb, ?_⟩
      -- an equal element later in the list would stand between equal neighbours
      rintro rfl
      rcases List.mem_cons.1 hxb with rfl | hxas
      · exact hab (beq_self_eq_true a)
      · have hba : r b a := (List.pairwise_cons.1 htail).1 a hxas
        exact hab (beq_iff_eq.2 (hanti a b (ha b List.mem_cons_self) hba))
  termination_by as.length

/-- Different elements stay different under an injective function. -/
theorem map_eraseReps {β : Type} [BEq β] [LawfulBEq β] {f : α → β} (hf : Function.Injective f)
    (as : List α) : as.eraseReps.map f = (as.map f).eraseReps := by
  match as with
  | [] => rfl
  | [a] => rfl
  | a :: b :: as =>
    have hbeq : (f a == f b) = (a == b) := by
      rw [Bool.eq_iff_iff, beq_iff_eq, beq_iff_eq, hf.eq_iff]
    rw [List.map_cons, List.map_cons, eraseReps_cons_cons, eraseReps_cons_cons, hbeq]
    split
    · exact map_eraseReps hf (a :: as)
    · rw [List.map_cons, map_eraseReps hf (b :: as), List.map_cons]
  termination_by as.length

omit [LawfulBEq α] in
theorem length_eraseReps_le (as : List α) : as.eraseReps.length ≤ as.length := by
  match as with
  | [] => exact le_rfl
  | [a] => exact le_rfl
  | a :: b :: as =>
    rw [eraseReps_cons_cons]
    split
    · exact (length_eraseReps_le (a :: as)).trans (Nat.le_succ _)
    · exact Nat.succ_le_succ (length_eraseReps_le (b :: as))
  termination_by as.length

omit [LawfulBEq α] in
theorem eraseDups_sublist (as : List α) : as.eraseDups.Sublist as := by
  match as with
  | [] => exact .slnil
  | a :: as =>
    have hfilter : (as.filter fun b => !b == a).length ≤ as.length := List.length_filter_le _ _
    rw [List.eraseDups_cons]
    exact ((eraseDups_sublist _).trans List.filter_sublist).cons_cons a
  termination_by as.length

omit [LawfulBEq α] in
theorem length_eraseDups_le (as : List α) : as.eraseDups.length ≤ as.length :=
  (eraseDups_sublist as).length_le

theorem mem_eraseReps_mergeSort {le : α → α → Bool} {x : α} {as : List α} :
    x ∈ (as.mergeSort le).eraseReps ↔ x ∈ as := by
  rw [mem_eraseReps, List.mem_mergeSort]

theorem pairwise_eraseReps_mergeSort {le : α → α → Bool}
    (htrans : ∀ a b c, le a b → le b c → le a c) (htotal : ∀ a b, le a b || le b a)
    (hanti : ∀ a b, le a b → le b a → a = b) (as : List α) :
    (as.mergeSort le).eraseReps.Pairwise fun a b => le a b ∧ a ≠ b :=
  pairwise_eraseReps hanti (List.pairwise_mergeSort htrans htotal as)

end Repetitions

/-! ## Positions -/

/-- In a list in order, the elements up to a position are those before the element there. -/
theorem filter_eq_take {r : α → α → Prop} [DecidableRel r] (hasymm : ∀ a b, r a b → ¬ r b a)
    {as : List α} (h : as.Pairwise r) {i : Nat} {x : α} (hx : as[i]? = some x) :
    as.filter (fun a => r a x) = as.take i := by
  obtain ⟨hi, rfl⟩ := List.getElem?_eq_some_iff.1 hx
  have hirrefl : ¬ r as[i] as[i] := fun hr => hasymm _ _ hr hr
  -- all elements before the position come before the element, and none after it does
  have hbefore : ∀ a ∈ as.take i, r a as[i] := by
    intro a ha
    obtain ⟨j, hj, rfl⟩ := List.mem_take_iff_getElem.1 ha
    exact List.pairwise_iff_getElem.1 h j i (by omega) hi (by omega)
  have hafter : ∀ a ∈ as.drop (i + 1), ¬ r a as[i] := by
    intro a ha
    obtain ⟨j, hj, rfl⟩ := List.mem_drop_iff_getElem.1 ha
    exact hasymm _ _ (List.pairwise_iff_getElem.1 h i (i + 1 + j) hi (by omega) (by omega))
  calc as.filter (fun a => r a as[i])
      = (as.take i ++ as[i] :: as.drop (i + 1)).filter (fun a => r a as[i]) := by
        rw [← List.drop_eq_getElem_cons hi, List.take_append_drop]
    _ = as.take i := by
        rw [List.filter_append, List.filter_cons_of_neg (by simpa using hirrefl),
          List.filter_eq_self.2 (by simpa using hbefore),
          List.filter_eq_nil_iff.2 (by simpa using hafter), List.append_nil]

/-- In a list in order, the position of an element is the number of those before it. -/
theorem countP_of_getElem? {r : α → α → Prop} [DecidableRel r] (hasymm : ∀ a b, r a b → ¬ r b a)
    {as : List α} (h : as.Pairwise r) {i : Nat} {x : α} (hx : as[i]? = some x) :
    as.countP (fun a => r a x) = i := by
  have hi : i < as.length := (List.getElem?_eq_some_iff.1 hx).1
  rw [List.countP_eq_length_filter, filter_eq_take hasymm h hx, List.length_take]
  omega

/-- The place of an element among those that are kept. -/
theorem getElem?_filter {as : List α} (f : α → Bool) {i : Nat} {x : α} (hx : as[i]? = some x)
    (hf : f x) : (as.filter f)[(as.take i).countP f]? = some x := by
  obtain ⟨hi, rfl⟩ := List.getElem?_eq_some_iff.1 hx
  have hsplit : as.filter f = (as.take i).filter f ++ as[i] :: (as.drop (i + 1)).filter f := by
    conv_lhs => rw [← List.take_append_drop i as, List.drop_eq_getElem_cons hi]
    rw [List.filter_append, List.filter_cons_of_pos hf]
  rw [hsplit, List.countP_eq_length_filter, List.getElem?_append_right le_rfl, Nat.sub_self,
    List.getElem?_cons_zero]

theorem Pairwise.nodup_of_irrefl {r : α → α → Prop} (hirrefl : ∀ a, ¬ r a a) {as : List α}
    (h : as.Pairwise r) : as.Nodup :=
  h.imp fun {a b} hab => by
    rintro rfl
    exact hirrefl a hab

/-- Lists in a strict order are determined by their members. -/
theorem eq_of_pairwise_of_mem_iff {r : α → α → Prop} (hasymm : ∀ a b, r a b → ¬ r b a)
    {as bs : List α} (has : as.Pairwise r) (hbs : bs.Pairwise r) (hmem : ∀ x, x ∈ as ↔ x ∈ bs) :
    as = bs := by
  have hirrefl : ∀ a, ¬ r a a := fun a haa => hasymm a a haa haa
  have hperm : as.Perm bs := (List.perm_ext_iff_of_nodup (Pairwise.nodup_of_irrefl hirrefl has)
    (Pairwise.nodup_of_irrefl hirrefl hbs)).2 hmem
  exact hperm.eq_of_pairwise (fun a b _ _ hab hba => absurd hba (hasymm a b hab)) has hbs

/-- The value that is found first under a key is the only one under distinct keys. -/
theorem lookup_eq_some_iff_mem {κ : Type} [BEq κ] [LawfulBEq κ] {es : List (κ × α)}
    (h : (es.map Prod.fst).Nodup) {k : κ} {a : α} : es.lookup k = some a ↔ (k, a) ∈ es := by
  induction es with
  | nil => simp
  | cons e es ih =>
    obtain ⟨k', b⟩ := e
    obtain ⟨hnotin, hnodup⟩ := List.nodup_cons.1 h
    rw [List.lookup_cons, List.mem_cons, Prod.mk.injEq]
    by_cases hk : k = k'
    · subst hk
      have hrest : (k, a) ∉ es := fun hmem => hnotin (List.mem_map.2 ⟨(k, a), hmem, rfl⟩)
      rw [beq_self_eq_true]
      simp [hrest, eq_comm]
    · rw [beq_eq_false_iff_ne.2 hk]
      simp [ih hnodup, hk]

theorem filter_toFinset [DecidableEq α] {as bs : List α} (hmem : ∀ x, x ∈ as ↔ x ∈ bs)
    (p : α → Prop) [DecidablePred p] : bs.toFinset.filter p = (as.filter p).toFinset := by
  ext x
  simp [hmem]

/-- Counting in a list without repetitions is counting distinct elements. -/
theorem card_filter_toFinset [DecidableEq α] {as bs : List α} (hnodup : as.Nodup)
    (hmem : ∀ x, x ∈ as ↔ x ∈ bs) (p : α → Prop) [DecidablePred p] :
    (bs.toFinset.filter p).card = as.countP p := by
  rw [filter_toFinset hmem, List.toFinset_card_of_nodup (hnodup.filter _),
    List.countP_eq_length_filter]

/-- Adding up in a list without repetitions is adding up over distinct elements. -/
theorem sum_filter_toFinset [DecidableEq α] {as bs : List α} (hnodup : as.Nodup)
    (hmem : ∀ x, x ∈ as ↔ x ∈ bs) (p : α → Prop) [DecidablePred p] (f : α → Nat) :
    ∑ x ∈ bs.toFinset with p x, f x = ((as.filter p).map f).sum := by
  rw [filter_toFinset hmem, List.sum_toFinset f (hnodup.filter _)]

end Paradigm
