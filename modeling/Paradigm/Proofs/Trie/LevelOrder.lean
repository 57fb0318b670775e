import Mathlib
import Paradigm.Proofs.Storage.Run
import Paradigm.Proofs.Trie.DegreeSequence
import Paradigm.Proofs.Trie.Shortlex

/-!
# Trees in level order

The nodes of a tree are the paths to them, in order.  The children of a node then stand together,
after those of the nodes before it, so that the tree is given back by the numbers of children alone.

## Main definitions

* `LevelOrder`: the nodes of a tree, in order
* `childrenOf`, `degrees`: the children of a node, and how many each node has
* `firstChild`: the number of the first child of a node
* `nodePaths`: the nodes of the paths to keys

## Main results

* `LevelOrder.getElem?_child`: the children of a node by their numbers
* `LevelOrder.length_childrenOf`: how many children a node has
* `LevelOrder.flatMap_childrenOf`: the nodes are the children of all nodes in turn
* `LevelOrder.nodePaths`: the nodes of the paths to keys are in level order
-/

namespace Paradigm

/-- The paths of the nodes of a tree, in order: with each path the one to its parent. -/
structure LevelOrder (nodes : List (List UInt8)) : Prop where
  sorted : nodes.Pairwise Precedes
  root : [] ∈ nodes
  closed : ∀ p ∈ nodes, p.dropLast ∈ nodes

/-- The children of a node, in order. -/
def childrenOf (nodes : List (List UInt8)) (p : List UInt8) : List (List UInt8) :=
  nodes.tail.filter (·.dropLast == p)

/-- The number of children of each node. -/
def degrees (nodes : List (List UInt8)) : List Nat :=
  nodes.map fun p => (childrenOf nodes p).length

/-- The number of the first child of a node, or of that of the next node that has one. -/
def firstChild (nodes : List (List UInt8)) (node : Nat) : Nat :=
  1 + ((degrees nodes).take node).sum

@[simp] theorem length_degrees (nodes : List (List UInt8)) :
    (degrees nodes).length = nodes.length := by
  simp [degrees]

/-- The units of a trie before a node, with the one for the root, number its first child. -/
theorem sum_take_degrees (nodes : List (List UInt8)) (v : Nat) :
    ((1 :: degrees nodes).take (v + 1)).sum = firstChild nodes v := by
  rw [List.take_succ_cons, List.sum_cons, firstChild]

theorem getElem?_degrees {nodes : List (List UInt8)} {v : Nat} {p : List UInt8}
    (hp : nodes[v]? = some p) : (degrees nodes)[v]? = some (childrenOf nodes p).length := by
  rw [degrees, List.getElem?_map, hp, Option.map_some]

/-! ## Children by their numbers -/

namespace LevelOrder

variable {nodes : List (List UInt8)}

theorem nodup (h : LevelOrder nodes) : nodes.Nodup :=
  Pairwise.nodup_of_irrefl Precedes.irrefl h.sorted

theorem mem_of_prefix (h : LevelOrder nodes) {p q : List UInt8} (hq : q ∈ nodes) (hpq : p <+: q) :
    p ∈ nodes := by
  obtain ⟨rest, rfl⟩ := hpq
  induction rest using List.reverseRecOn with
  | nil => simpa using hq
  | append_singleton rest x ih =>
    refine ih ?_
    simpa [← List.append_assoc] using h.closed _ hq

theorem lt_of_precedes (h : LevelOrder nodes) {i j : Nat} {p q : List UInt8}
    (hi : nodes[i]? = some p) (hj : nodes[j]? = some q) (hpq : Precedes p q) : i < j := by
  obtain ⟨hilt, rfl⟩ := List.getElem?_eq_some_iff.1 hi
  obtain ⟨hjlt, rfl⟩ := List.getElem?_eq_some_iff.1 hj
  rcases Nat.lt_trichotomy i j with hlt | rfl | hgt
  · exact hlt
  · exact absurd hpq (Precedes.irrefl _)
  · exact absurd hpq (Precedes.asymm _ _ (List.pairwise_iff_getElem.1 h.sorted j i hjlt hilt hgt))

/-- A path has one number. -/
theorem number_inj (h : LevelOrder nodes) {i j : Nat} {p : List UInt8} (hi : nodes[i]? = some p)
    (hj : nodes[j]? = some p) : i = j := by
  obtain ⟨hlt, -⟩ := List.getElem?_eq_some_iff.1 hi
  exact (List.getElem?_inj hlt h.nodup).1 (hi.trans hj.symm)

/-- The root comes first. -/
theorem eq_cons (h : LevelOrder nodes) : nodes = [] :: nodes.tail := by
  cases nodes with
  | nil => simpa using h.root
  | cons p rest =>
    rcases List.mem_cons.1 h.root with rfl | hin
    · rfl
    -- nothing comes before the empty path
    · rcases (List.pairwise_cons.1 h.sorted).1 _ hin with hlt | ⟨-, hlt⟩
      · simp at hlt
      · simp at hlt

theorem getElem?_zero (h : LevelOrder nodes) : nodes[0]? = some [] := by
  rw [h.eq_cons]
  rfl

theorem mem_tail_iff (h : LevelOrder nodes) {p : List UInt8} :
    p ∈ nodes.tail ↔ p ∈ nodes ∧ p ≠ [] := by
  have hcons := h.eq_cons
  have hnotin : [] ∉ nodes.tail := (List.nodup_cons.1 (hcons ▸ h.nodup)).1
  constructor
  · intro hp
    refine ⟨List.mem_of_mem_tail hp, ?_⟩
    rintro rfl
    exact hnotin hp
  · rintro ⟨hp, hne⟩
    rw [hcons] at hp
    exact (List.mem_cons.1 hp).resolve_left hne

theorem mem_childrenOf (h : LevelOrder nodes) {p q : List UInt8} :
    q ∈ childrenOf nodes p ↔ q ∈ nodes ∧ ∃ x, q = p ++ [x] := by
  rw [childrenOf, List.mem_filter, h.mem_tail_iff, beq_iff_eq]
  constructor
  · rintro ⟨⟨hq, hne⟩, rfl⟩
    exact ⟨hq, q.getLast hne, (List.dropLast_append_getLast hne).symm⟩
  · rintro ⟨hq, x, rfl⟩
    exact ⟨⟨hq, by simp⟩, by simp⟩

/-- A node has as many children as there are bytes that lead to longer paths. -/
theorem length_childrenOf (h : LevelOrder nodes) (p : List UInt8) :
    (childrenOf nodes p).length = (Finset.univ.filter fun x => p ++ [x] ∈ nodes).card := by
  have hnodup : (childrenOf nodes p).Nodup := h.nodup.tail.filter _
  have hbytes : (childrenOf nodes p).toFinset =
      (Finset.univ.filter fun x => p ++ [x] ∈ nodes).image (p ++ [·]) := by
    ext q
    simp only [List.mem_toFinset, h.mem_childrenOf, Finset.mem_image, Finset.mem_filter,
      Finset.mem_univ, true_and]
    constructor
    · rintro ⟨hq, x, rfl⟩
      exact ⟨x, hq, rfl⟩
    · rintro ⟨x, hx, rfl⟩
      exact ⟨hx, x, rfl⟩
  rw [← List.toFinset_card_of_nodup hnodup, hbytes]
  apply Finset.card_image_of_injective
  intro x y hxy
  simpa using hxy

/-- The children of the first node come first, then those of the second one, and so on. -/
theorem flatMap_childrenOf (h : LevelOrder nodes) :
    nodes.flatMap (childrenOf nodes) = nodes.tail := by
  -- both lists are in order, so that their members decide
  refine eq_of_pairwise_precedes (List.pairwise_flatMap.2 ⟨?_, ?_⟩) h.sorted.tail fun q => ?_
  · exact fun p _ => h.sorted.tail.filter _
  · refine h.sorted.imp fun {p p'} hpp' q hq q' hq' => ?_
    obtain ⟨-, x, rfl⟩ := h.mem_childrenOf.1 hq
    obtain ⟨-, x', rfl⟩ := h.mem_childrenOf.1 hq'
    exact precedes_append_singleton.2 (.inl hpp')
  · rw [List.mem_flatMap]
    constructor
    · rintro ⟨p, -, hq⟩
      exact List.mem_of_mem_filter hq
    · intro hq
      exact ⟨q.dropLast, h.closed q (h.mem_tail_iff.1 hq).1, List.mem_filter.2 ⟨hq, by simp⟩⟩

/-- Every node but the root is a child of one node. -/
theorem sum_degrees (h : LevelOrder nodes) : nodes.length = 1 + (degrees nodes).sum := by
  have hlen := congrArg List.length h.flatMap_childrenOf
  have hcons := congrArg List.length h.eq_cons
  rw [List.length_flatMap] at hlen
  rw [degrees, hlen]
  rw [List.length_cons] at hcons
  omega

/-- The children of a node by their numbers. -/
theorem getElem?_child (h : LevelOrder nodes) {v j : Nat} {p : List UInt8}
    (hp : nodes[v]? = some p) (hj : j < (childrenOf nodes p).length) :
    nodes[firstChild nodes v + j]? = (childrenOf nodes p)[j]? := by
  have htail : ∀ i, nodes[i + 1]? = nodes.tail[i]? := fun i => by
    conv_lhs => rw [h.eq_cons, List.getElem?_cons_succ]
  rw [firstChild, Nat.add_assoc, Nat.add_comm 1, htail, ← h.flatMap_childrenOf]
  exact getElem?_flatMap _ _ hp hj

/-- The paths to the children of a node are longer by a label. -/
theorem exists_label (h : LevelOrder nodes) {v j : Nat} {p : List UInt8}
    (hp : nodes[v]? = some p) (hj : j < (childrenOf nodes p).length) :
    ∃ x, nodes[firstChild nodes v + j]? = some (p ++ [x]) := by
  obtain ⟨-, x, hx⟩ := h.mem_childrenOf.1 (List.getElem_mem hj)
  refine ⟨x, ?_⟩
  rw [h.getElem?_child hp hj, List.getElem?_eq_getElem hj, hx]

/-- Every node but the root has a number among the children of its parent. -/
theorem exists_child (h : LevelOrder nodes) {c : Nat} {p : List UInt8} {x : UInt8}
    (hc : nodes[c]? = some (p ++ [x])) :
    ∃ v j, nodes[v]? = some p ∧ j < (childrenOf nodes p).length ∧ c = firstChild nodes v + j := by
  have hmem : p ++ [x] ∈ nodes := List.mem_of_getElem? hc
  have hparent : p ∈ nodes := by simpa using h.closed _ hmem
  obtain ⟨v, hv⟩ := List.mem_iff_getElem?.1 hparent
  obtain ⟨j, hj⟩ := List.mem_iff_getElem?.1 (h.mem_childrenOf.2 ⟨hmem, x, rfl⟩)
  obtain ⟨hjlt, -⟩ := List.getElem?_eq_some_iff.1 hj
  refine ⟨v, j, hv, hjlt, ?_⟩
  apply h.number_inj hc
  rw [h.getElem?_child hv hjlt, hj]

/-- The children of a node are ordered by their labels. -/
theorem label_lt (h : LevelOrder nodes) {i j : Nat} {p : List UInt8} {x y : UInt8}
    (hi : nodes[i]? = some (p ++ [x])) (hj : nodes[j]? = some (p ++ [y])) (hij : i < j) :
    x < y := by
  obtain ⟨hilt, hi⟩ := List.getElem?_eq_some_iff.1 hi
  obtain ⟨hjlt, hj⟩ := List.getElem?_eq_some_iff.1 hj
  have hlt := List.pairwise_iff_getElem.1 h.sorted i j hilt hjlt hij
  rw [hi, hj, precedes_append_singleton] at hlt
  exact (hlt.resolve_left (Precedes.irrefl p)).2

end LevelOrder

/-! ## The nodes for keys -/

/-- The paths of the nodes of a trie with the given keys, in order. -/
def nodePaths (keys : List (List UInt8)) : List (List UInt8) :=
  distinctPaths ([] :: keys.flatMap List.inits)

theorem mem_nodePaths {p : List UInt8} {keys : List (List UInt8)} :
    p ∈ nodePaths keys ↔ p = [] ∨ ∃ key ∈ keys, p <+: key := by
  rw [nodePaths, mem_distinctPaths, List.mem_cons, List.mem_flatMap]
  simp only [List.mem_inits]

/-- The nodes of the paths to keys are those of a tree, in order. -/
theorem LevelOrder.nodePaths (keys : List (List UInt8)) : LevelOrder (nodePaths keys) where
  sorted := pairwise_distinctPaths _
  root := mem_nodePaths.2 (.inl rfl)
  closed := by
    intro p hp
    rcases mem_nodePaths.1 hp with rfl | ⟨key, hkey, hpre⟩
    · exact hp
    · exact mem_nodePaths.2 (.inr ⟨key, hkey, (List.dropLast_prefix p).trans hpre⟩)

end Paradigm
