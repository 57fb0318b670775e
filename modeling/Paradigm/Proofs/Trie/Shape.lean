import Mathlib
import Paradigm.Proofs.Trie.Entries

/-!
# The shapes of stored tries

A stored trie is accepted by the numbers of its bits and nodes alone.  These do not make its nodes a
tree: the first set bits may follow each other, so that a node has no parent, and a set bit may
stand so late that a node is its own parent, or has one with a greater number.  Parents rise with
their children, so that a way up ends at the root, or at a node without a parent, or comes to a node
that is not above its parent, from where it never gets back to the root.

In a tree every way up ends at the root, and the walk through all keys meets every node once.  The
tries of lists of keys are trees.

## Main definitions

* `ByteTrie.climb`: the node at which some steps up from a node end
* `ByteTrie.IsTree`: the root has no parent, and all other nodes have one with a smaller number
* `ByteTrie.below`: the nodes from which a way up comes to a node
* `ByteTrie.Walk.weights`: the weights of the nodes that a walk will meet

## Main results

* `ByteTrie.climb_cases`: the three kinds of ways up
* `ByteTrie.climb_ne_zero_of_key`: a key that is taken for endless has no end
* `ByteTrie.mem_children_iff`: a node is a child of its parent
* `ByteTrie.IsTree.sum_below`: the nodes below a node are itself and those below its children
* `ByteTrie.IsTree.meet_cases`, `ByteTrie.IsTree.walk_ends`: one step of a walk through a tree, and
  a whole walk
* `ByteTrie.ofKeys_isTree`: the trie of a list of keys is a tree
* `ByteTrie.ways_of_read`: the ways through a stored trie
* `ByteTrie.read_accepts_cycles`: stored tries that are not trees
-/

namespace Paradigm

namespace ByteTrie

/-- The node at which some steps up from a node end; none if one of them has no parent to go to. -/
def climb (t : ByteTrie) : Nat → Nat → Option Nat
  | 0, node => some node
  | steps + 1, node => t.parent node >>= t.climb steps

/-- The root has no parent, and all other nodes have one with a smaller number. -/
structure IsTree (t : ByteTrie) : Prop where
  root : t.parent 0 = none
  parent_lt : ∀ node < t.nodeCount, node ≠ 0 → ∃ p < node, t.parent node = some p

instance (t : ByteTrie) : Decidable t.IsTree :=
  decidable_of_iff (t.parent 0 = none ∧
      ∀ node < t.nodeCount, node ≠ 0 → ∃ p < node, t.parent node = some p)
    ⟨fun h => ⟨h.1, h.2⟩, fun h => ⟨h.root, h.parent_lt⟩⟩

theorem climb_add (t : ByteTrie) (steps more node : Nat) :
    t.climb (steps + more) node = t.climb steps node >>= t.climb more := by
  induction steps generalizing node with
  | zero => rw [Nat.zero_add, climb, Option.bind_eq_bind, Option.bind_some]
  | succ steps ih =>
    rw [Nat.succ_add, climb, climb]
    cases t.parent node with
    | none => rfl
    | some p => exact ih p

theorem climb_one (t : ByteTrie) (node : Nat) : t.climb 1 node = t.parent node := by
  rw [climb]
  exact Option.bind_fun_some (t.parent node)

theorem climb_succ (t : ByteTrie) (steps node : Nat) :
    t.climb (steps + 1) node = t.climb steps node >>= t.parent := by
  rw [climb_add, funext t.climb_one]

/-! ## What is accepted -/

theorem wellShaped_iff {t : ByteTrie} : t.wellShaped ↔ t.nodeCount ≠ 0 ∧
    t.tree.size = 2 * t.nodeCount + 1 ∧ t.tree.count = t.nodeCount ∧
      t.terminal.size = t.nodeCount := by
  simp [wellShaped, and_assoc]

theorem wellShaped_of_read {c c' : Cursor} {t : ByteTrie} (h : read c = .ok t c') :
    t.wellShaped := by
  obtain ⟨count, c₁, -, h⟩ := Reader.bind_eq_ok.1 h
  obtain ⟨_, c₂, -, h⟩ := Reader.bind_eq_ok.1 h
  obtain ⟨tree, c₃, -, h⟩ := Reader.bind_eq_ok.1 h
  obtain ⟨terminal, c₄, -, h⟩ := Reader.bind_eq_ok.1 h
  obtain ⟨labels, c₅, -, h⟩ := Reader.bind_eq_ok.1 h
  obtain ⟨_, c₆, -, h⟩ := Reader.bind_eq_ok.1 h
  split at h
  · obtain ⟨rfl, -⟩ := EStateM.Result.ok.inj h
    assumption
  · cases h

/-! ## Ways up -/

section Up

variable {t : ByteTrie} {node m p : Nat}

theorem parent_eq_some_iff :
    t.parent node = some p ↔ ∃ q, t.tree.select1 node = some q ∧ t.tree.rank0 q = p + 1 := by
  unfold parent
  cases hq : t.tree.select1 node with
  | none => simp
  | some q =>
    simp only [Option.bind_eq_bind, Option.bind_some, Option.some.injEq, exists_eq_left']
    cases hrank : t.tree.rank0 q with
    | zero => simp
    | succ n => simp

theorem lt_count_of_parent (h : t.parent node = some p) : node < t.tree.count := by
  obtain ⟨q, hq, -⟩ := parent_eq_some_iff.1 h
  by_contra hge
  rw [(t.tree.select1_eq_none_iff node).2 (Nat.le_of_not_lt hge)] at hq
  cases hq

/-- Parents rise with their children. -/
theorem parent_mono {a b : Nat} (hab : a ≤ b) (ha : t.parent a = some p) (hb : b < t.tree.count) :
    ∃ q, t.parent b = some q ∧ p ≤ q := by
  obtain ⟨i, hi, hrank⟩ := parent_eq_some_iff.1 ha
  obtain ⟨j, hj⟩ := BitVector.exists_select1 hb
  have hle := t.tree.rank0_mono (BitVector.select1_le hab hi hj)
  refine ⟨t.tree.rank0 j - 1, parent_eq_some_iff.2 ⟨j, hj, ?_⟩, ?_⟩
  · omega
  · omega

/-- From a node that is not above its parent no way leads below it. -/
theorem le_climb (hp : t.parent m = some p) (hle : m ≤ p) {steps x : Nat} (hnode : m ≤ node)
    (hx : t.climb steps node = some x) : m ≤ x := by
  induction steps generalizing node with
  | zero =>
    obtain rfl := Option.some.inj hx
    exact hnode
  | succ steps ih =>
    obtain ⟨q, hq, hx⟩ := Option.bind_eq_some_iff.1 hx
    obtain ⟨q', hq', hpq⟩ := parent_mono hnode hp (lt_count_of_parent hq)
    obtain rfl := Option.some.inj (hq'.symm.trans hq)
    exact ih (hle.trans hpq) hx

/-- **The ways up.**  A way ends at the root and comes to smaller numbers with every step, or it
comes to a node without a parent, or it comes to a node that is not above its parent and never ends
at the root. -/
theorem climb_cases (t : ByteTrie) (node : Nat) :
    (∃ steps ≤ node, t.climb steps node = some 0 ∧
        ∀ k ≤ steps, ∃ m, t.climb k node = some m ∧ m + k ≤ node) ∨
      (∃ steps m, t.climb steps node = some m ∧ m ≤ node ∧ m ≠ 0 ∧ t.parent m = none) ∨
      ((∃ steps m p, t.climb steps node = some m ∧ m ≤ node ∧ t.parent m = some p ∧ m ≤ p) ∧
        ∀ steps, t.climb steps node ≠ some 0) := by
  induction node using Nat.strong_induction_on with
  | h node ih =>
    rcases Nat.eq_zero_or_pos node with rfl | hpos
    · refine .inl ⟨0, le_rfl, rfl, ?_⟩
      intro k hk
      obtain rfl := Nat.le_zero.1 hk
      exact ⟨0, rfl, le_rfl⟩
    cases hparent : t.parent node with
    | none => exact .inr (.inl ⟨0, node, rfl, le_rfl, hpos.ne', hparent⟩)
    | some p =>
      have hstep : ∀ steps, t.climb (steps + 1) node = t.climb steps p := by
        intro steps
        rw [climb, hparent]
        rfl
      rcases Nat.lt_or_ge p node with hlt | hge
      -- the way goes on from a smaller number
      · rcases ih p hlt with ⟨steps, hsteps, hroot, hway⟩ | ⟨steps, m, hm, hle, horphan⟩ |
          ⟨⟨steps, m, q, hm, hle, hq⟩, hnever⟩
        · refine .inl ⟨steps + 1, by omega, by rw [hstep, hroot], ?_⟩
          intro k hk
          cases k with
          | zero => exact ⟨node, rfl, le_rfl⟩
          | succ k =>
            obtain ⟨m, hclimb, hm⟩ := hway k (by omega)
            exact ⟨m, by rw [hstep, hclimb], by omega⟩
        · exact .inr (.inl ⟨steps + 1, m, by rwa [hstep], by omega, horphan⟩)
        · refine .inr (.inr ⟨⟨steps + 1, m, q, by rwa [hstep], by omega, hq⟩, ?_⟩)
          intro k
          cases k with
          | zero => exact fun hzero => hpos.ne' (Option.some.inj hzero)
          | succ k =>
            rw [hstep]
            exact hnever k
      · refine .inr (.inr ⟨⟨0, node, p, rfl, le_rfl, hparent, hge⟩, ?_⟩)
        intro steps hzero
        exact Nat.not_le_of_lt hpos (le_climb hparent hge le_rfl hzero)

/-- The labels on a way up that ends at the root in time can be put together, if all of its nodes
have labels. -/
theorem exists_pathTo {steps k : Nat} (hk : k ≤ steps) (hroot : t.climb k node = some 0)
    (hway : ∀ j ≤ k, ∃ m, t.climb j node = some m ∧ m < t.nodeCount) (below : List UInt8) :
    ∃ key, t.pathTo steps node below = .ok key := by
  induction steps generalizing node k below with
  | zero =>
    obtain rfl := Nat.le_zero.1 hk
    obtain rfl := Option.some.inj hroot
    exact ⟨below, rfl⟩
  | succ steps ih =>
    rw [pathTo]
    by_cases hnode : node = 0
    · rw [if_pos hnode]
      exact ⟨below, rfl⟩
    rw [if_neg hnode]
    -- the first step goes to the parent, since the node is not the root
    cases k with
    | zero => exact absurd (Option.some.inj hroot) hnode
    | succ k =>
      obtain ⟨p, hp, hroot⟩ := Option.bind_eq_some_iff.1 hroot
      obtain ⟨_, hself, hlt⟩ := hway 0 (Nat.zero_le _)
      obtain rfl := Option.some.inj hself
      rw [Checked.element_eq_ok.2 (Array.getElem?_eq_getElem hlt), hp]
      apply ih (Nat.le_of_succ_le_succ hk) hroot
      intro j hj
      obtain ⟨m, hm, hlt⟩ := hway (j + 1) (Nat.succ_le_succ hj)
      rw [climb, hp] at hm
      exact ⟨m, hm, hlt⟩

/-- A way up that is taken for one without an end goes on for as many steps as it was given. -/
theorem exists_climb_of_endless {steps : Nat} {below : List UInt8}
    (h : t.pathTo steps node below = .error .endless) :
    ∀ k ≤ steps, ∃ m, t.climb k node = some m ∧ m ≠ 0 := by
  induction steps generalizing node below with
  | zero =>
    intro k hk
    obtain rfl := Nat.le_zero.1 hk
    refine ⟨node, rfl, ?_⟩
    rintro rfl
    cases h
  | succ steps ih =>
    rw [pathTo] at h
    have hnode : node ≠ 0 := by
      rintro rfl
      cases h
    rw [if_neg hnode] at h
    cases hlabel : Checked.element t.labels node with
    | error fault =>
      rw [hlabel] at h
      cases h
    | ok label =>
      rw [hlabel] at h
      cases hp : t.parent node with
      | none =>
        rw [hp] at h
        cases h
      | some p =>
        rw [hp] at h
        intro k hk
        cases k with
        | zero => exact ⟨node, rfl, hnode⟩
        | succ k =>
          obtain ⟨m, hm, hne⟩ := ih h k (Nat.le_of_succ_le_succ hk)
          exact ⟨m, by rw [climb, hp]; exact hm, hne⟩

/-- A way up that passes as many nodes as there are numbers below its own never ends at the root. -/
theorem climb_ne_zero_of_long_way (h : ∀ k ≤ node + 1, ∃ m, t.climb k node = some m ∧ m ≠ 0)
    (steps : Nat) : t.climb steps node ≠ some 0 := by
  -- it cannot come to smaller numbers with every step
  obtain ⟨j, hj, m, p, hm, hp, hle⟩ : ∃ j ≤ node, ∃ m p, t.climb j node = some m ∧
      t.parent m = some p ∧ m ≤ p := by
    by_contra hfalls
    have hsmaller : ∀ k ≤ node + 1, ∃ m, t.climb k node = some m ∧ m + k ≤ node := by
      intro k
      induction k with
      | zero => exact fun _ => ⟨node, rfl, le_rfl⟩
      | succ k ih =>
        intro hk
        obtain ⟨m, hm, hmk⟩ := ih (Nat.le_of_succ_le hk)
        obtain ⟨p, hp, -⟩ := h (k + 1) hk
        have hparent : t.parent m = some p := by
          rwa [climb_succ, hm] at hp
        refine ⟨p, hp, ?_⟩
        have hlt : p < m := by
          by_contra hge
          exact hfalls ⟨k, Nat.le_of_succ_le_succ hk, m, p, hm, hparent, Nat.le_of_not_lt hge⟩
        omega
    obtain ⟨m, -, hm⟩ := hsmaller (node + 1) le_rfl
    omega
  rcases Nat.le_total steps j with hsteps | hsteps
  · obtain ⟨q, hq, hne⟩ := h steps (by omega)
    rw [hq]
    exact fun hzero => hne (Option.some.inj hzero)
  · obtain ⟨more, rfl⟩ := Nat.exists_eq_add_of_le hsteps
    rw [climb_add, hm]
    intro hzero
    have hzero := le_climb hp hle le_rfl hzero
    obtain ⟨q, hq, hne⟩ := h j (by omega)
    obtain rfl := Option.some.inj (hm.symm.trans hq)
    omega

/-- **A key is taken for endless only if the way up from its node never ends at the root.** -/
theorem climb_ne_zero_of_key {id : Nat} (hnode : t.terminal.select1 id = some node)
    (hlt : node < t.nodeCount) (h : t.key id = .error .endless) (steps : Nat) :
    t.climb steps node ≠ some 0 := by
  rw [key, hnode] at h
  apply climb_ne_zero_of_long_way
  intro k hk
  exact exists_climb_of_endless h k (hk.trans hlt)

/-- In a tree all ways up end at the root. -/
theorem IsTree.exists_climb (h : t.IsTree) (hnode : node < t.nodeCount) :
    ∃ steps ≤ node, t.climb steps node = some 0 ∧
      ∀ k ≤ steps, ∃ m, t.climb k node = some m ∧ m + k ≤ node := by
  rcases t.climb_cases node with hroot | ⟨steps, m, -, hle, hne, horphan⟩ |
    ⟨⟨steps, m, p, hm, hle, hp, hge⟩, hnever⟩
  · exact hroot
  · obtain ⟨p, -, hp⟩ := h.parent_lt m (hle.trans_lt hnode) hne
    rw [horphan] at hp
    cases hp
  · have hne : m ≠ 0 := by
      rintro rfl
      exact hnever steps hm
    obtain ⟨q, hlt, hq⟩ := h.parent_lt m (hle.trans_lt hnode) hne
    obtain rfl := Option.some.inj (hp.symm.trans hq)
    exact absurd hge (Nat.not_le_of_lt hlt)

end Up

/-- A trie that stands for a tree in level order is one. -/
theorem Represents.isTree {t : ByteTrie} {nodes keys : List (List UInt8)}
    (h : t.Represents nodes keys) : t.IsTree where
  root := by
    have hfirst : t.tree.select1 0 = some 0 := by
      rw [t.tree.select1_eq_some_iff, h.tree, unary_cons]
      exact ⟨rfl, rfl⟩
    have hrank : t.tree.rank0 0 = 0 := by
      rw [t.tree.rank0_eq]
      rfl
    unfold parent
    rw [hfirst, Option.bind_eq_bind, Option.bind_some, hrank]
  parent_lt := by
    intro node hnode hne
    rw [h.nodeCount_eq] at hnode
    have hv := List.getElem?_eq_getElem hnode
    rcases List.eq_nil_or_concat nodes[node] with hnil | ⟨p, x, hp⟩
    · rw [hnil] at hv
      exact absurd (h.order.number_inj hv h.order.getElem?_zero) hne
    · rw [hp, List.concat_eq_append] at hv
      obtain ⟨u, hparent, -, hlt⟩ := h.parent_child hv
      exact ⟨u, hlt, hparent⟩

theorem ofKeys_isTree (keys : List (List UInt8)) : (ofKeys keys).IsTree :=
  (represents_ofKeys keys).isTree

/-! ## Children -/

section Down

variable {t : ByteTrie} {node m c : Nat}

theorem exists_select0 (ht : t.wellShaped) (hnode : node ≤ t.nodeCount) :
    ∃ q, t.tree.select0 node = some q := by
  obtain ⟨-, hsize, hcount, -⟩ := wellShaped_iff.1 ht
  have hsum := count_true_add_count_false t.tree.toList
  rw [← BitVector.count_eq, ← BitVector.size_eq] at hsum
  exact BitVector.exists_select0 (by omega)

/-- The children of a node have the numbers between the set bits before its own and those at its
end. -/
theorem exists_children_eq (ht : t.wellShaped) (hnode : node < t.nodeCount) :
    ∃ q q', t.tree.select0 node = some q ∧ t.tree.select0 (node + 1) = some q' ∧ t.children node =
      List.range' (t.tree.rank1 q) (t.tree.rank1 q' - t.tree.rank1 q) := by
  obtain ⟨q, hq⟩ := exists_select0 ht hnode.le
  obtain ⟨q', hq'⟩ := exists_select0 ht (Nat.succ_le_of_lt hnode)
  have hspan : t.childSpan node = some (t.tree.rank1 (q + 1), q' - (q + 1)) := by
    rw [childSpan, hq, hq']
    rfl
  have hbetween := BitVector.rank1_between hq hq'
  rw [BitVector.rank1_succ_of_select0 hq] at hspan hbetween
  refine ⟨q, q', hq, hq', ?_⟩
  rw [children, hspan]
  show List.range' _ _ = _
  congr 1
  omega

theorem nodup_children (ht : t.wellShaped) (hnode : node < t.nodeCount) :
    (t.children node).Nodup := by
  obtain ⟨q, q', -, -, hchildren⟩ := exists_children_eq ht hnode
  rw [hchildren]
  exact List.nodup_range'

/-- A node is a child of its parent, and of no other node. -/
theorem mem_children_iff (ht : t.wellShaped) (hnode : node < t.nodeCount) :
    c ∈ t.children node ↔ t.parent c = some node := by
  obtain ⟨-, -, hcount, -⟩ := wellShaped_iff.1 ht
  obtain ⟨q, q', hq, hq', hchildren⟩ := exists_children_eq ht hnode
  rw [hchildren, List.mem_range'_1, parent_eq_some_iff]
  rcases Nat.lt_or_ge c t.tree.count with hc | hc
  · -- the bit of the child stands between the two clear bits, which are one apart
    obtain ⟨p, hp⟩ := BitVector.exists_select1 hc
    have hbefore := BitVector.rank0_le_iff hp hq
    have hend := BitVector.rank0_le_iff hp hq'
    rw [hp]
    simp only [Option.some.injEq, exists_eq_left']
    omega
  · have hle := t.tree.rank1_le_count q'
    rw [(t.tree.select1_eq_none_iff c).2 hc]
    simp only [reduceCtorEq, false_and, exists_false, iff_false]
    omega

theorem lt_nodeCount_of_mem_children (ht : t.wellShaped) (hnode : node < t.nodeCount)
    (hc : c ∈ t.children node) : c < t.nodeCount := by
  obtain ⟨-, -, hcount, -⟩ := wellShaped_iff.1 ht
  rw [← hcount]
  exact lt_count_of_parent ((mem_children_iff ht hnode).1 hc)

/-! ## The nodes of a tree -/

/-- The nodes from which a way up comes to a node. -/
def below (t : ByteTrie) (node : Nat) : Finset Nat :=
  (Finset.range t.nodeCount).filter fun m => ∃ steps ≤ m, t.climb steps m = some node

namespace IsTree

/-- Every step up takes a smaller number. -/
theorem climb_add_le (h : t.IsTree) (hm : m < t.nodeCount) {steps : Nat}
    (hclimb : t.climb steps m = some node) : node + steps ≤ m := by
  induction steps generalizing m with
  | zero => exact (Option.some.inj hclimb).ge
  | succ steps ih =>
    obtain ⟨p, hp, hclimb⟩ := Option.bind_eq_some_iff.1 hclimb
    have hne : m ≠ 0 := by
      rintro rfl
      rw [h.root] at hp
      cases hp
    obtain ⟨q, hlt, hq⟩ := h.parent_lt m hm hne
    obtain rfl := Option.some.inj (hp.symm.trans hq)
    have := ih (hlt.trans hm) hclimb
    omega

theorem mem_below (h : t.IsTree) :
    m ∈ t.below node ↔ m < t.nodeCount ∧ ∃ steps, t.climb steps m = some node := by
  rw [below, Finset.mem_filter, Finset.mem_range]
  refine and_congr_right fun hm => ⟨fun ⟨steps, _, hclimb⟩ => ⟨steps, hclimb⟩, ?_⟩
  rintro ⟨steps, hclimb⟩
  have := h.climb_add_le hm hclimb
  exact ⟨steps, by omega, hclimb⟩

theorem le_of_mem_below (h : t.IsTree) (hm : m ∈ t.below node) : node ≤ m := by
  obtain ⟨hm, steps, hclimb⟩ := h.mem_below.1 hm
  exact (Nat.le_add_right _ _).trans (h.climb_add_le hm hclimb)

/-- All nodes of a tree are below its root. -/
theorem below_zero (h : t.IsTree) : t.below 0 = Finset.range t.nodeCount := by
  ext m
  rw [h.mem_below, Finset.mem_range]
  refine and_iff_left_of_imp fun hm => ?_
  obtain ⟨steps, -, hroot, -⟩ := h.exists_climb hm
  exact ⟨steps, hroot⟩

theorem lt_of_mem_children (h : t.IsTree) (ht : t.wellShaped) (hnode : node < t.nodeCount)
    (hc : c ∈ t.children node) : node < c := by
  have hparent := (mem_children_iff ht hnode).1 hc
  rw [← climb_one] at hparent
  have := h.climb_add_le (lt_nodeCount_of_mem_children ht hnode hc) hparent
  omega

/-- Below a node are itself and what is below its children. -/
theorem mem_below_iff_children (h : t.IsTree) (ht : t.wellShaped) (hnode : node < t.nodeCount) :
    m ∈ t.below node ↔ m = node ∨ ∃ c ∈ t.children node, m ∈ t.below c := by
  constructor
  · intro hm
    obtain ⟨hm, steps, hclimb⟩ := h.mem_below.1 hm
    cases steps with
    | zero => exact .inl (Option.some.inj hclimb)
    | succ steps =>
      rw [climb_succ] at hclimb
      obtain ⟨c, hc, hparent⟩ := Option.bind_eq_some_iff.1 hclimb
      exact .inr ⟨c, (mem_children_iff ht hnode).2 hparent, h.mem_below.2 ⟨hm, steps, hc⟩⟩
  · rintro (rfl | ⟨c, hc, hm⟩)
    · exact h.mem_below.2 ⟨hnode, 0, rfl⟩
    · obtain ⟨hm, steps, hclimb⟩ := h.mem_below.1 hm
      refine h.mem_below.2 ⟨hm, steps + 1, ?_⟩
      rw [climb_succ, hclimb]
      exact (mem_children_iff ht hnode).1 hc

/-- The way up from one child of a node does not come to another one. -/
theorem eq_of_climb (h : t.IsTree) (ht : t.wellShaped) (hnode : node < t.nodeCount) {c' : Nat}
    (hc : c ∈ t.children node) (hc' : c' ∈ t.children node) {steps : Nat}
    (hclimb : t.climb steps c = some c') : c = c' := by
  cases steps with
  | zero => exact Option.some.inj hclimb
  | succ steps =>
    rw [climb, (mem_children_iff ht hnode).1 hc] at hclimb
    have hle := h.climb_add_le hnode hclimb
    have hlt := h.lt_of_mem_children ht hnode hc'
    omega

/-- What is below one child of a node is not below another one. -/
theorem eq_of_mem_below (h : t.IsTree) (ht : t.wellShaped) (hnode : node < t.nodeCount) {c' : Nat}
    (hc : c ∈ t.children node) (hc' : c' ∈ t.children node) (hm : m ∈ t.below c)
    (hm' : m ∈ t.below c') : c = c' := by
  obtain ⟨-, steps, hclimb⟩ := h.mem_below.1 hm
  obtain ⟨-, steps', hclimb'⟩ := h.mem_below.1 hm'
  -- both are on the way up from one node, so that one of them is on the way up from the other
  rcases Nat.le_total steps steps' with hle | hle
  · obtain ⟨more, rfl⟩ := Nat.exists_eq_add_of_le hle
    rw [climb_add, hclimb] at hclimb'
    exact h.eq_of_climb ht hnode hc hc' hclimb'
  · obtain ⟨more, rfl⟩ := Nat.exists_eq_add_of_le hle
    rw [climb_add, hclimb'] at hclimb
    exact (h.eq_of_climb ht hnode hc' hc hclimb).symm

/-- The weights below a node are its own and those below its children. -/
theorem sum_below (h : t.IsTree) (ht : t.wellShaped) (hnode : node < t.nodeCount)
    (weight : Nat → Nat) : ∑ m ∈ t.below node, weight m =
      weight node + ((t.children node).map fun c => ∑ m ∈ t.below c, weight m).sum := by
  have hbelow : t.below node = insert node ((t.children node).toFinset.biUnion t.below) := by
    ext m
    simp only [h.mem_below_iff_children ht hnode, Finset.mem_insert, Finset.mem_biUnion,
      List.mem_toFinset]
  have hself : node ∉ (t.children node).toFinset.biUnion t.below := by
    rw [Finset.mem_biUnion]
    rintro ⟨c, hc, hmem⟩
    have hlt := h.lt_of_mem_children ht hnode (List.mem_toFinset.1 hc)
    exact Nat.not_le_of_lt hlt (h.le_of_mem_below hmem)
  have hdisjoint : ((t.children node).toFinset : Set Nat).PairwiseDisjoint t.below := by
    intro c hc c' hc' hne
    refine Finset.disjoint_left.2 fun m hm hm' => hne ?_
    exact h.eq_of_mem_below ht hnode (List.mem_toFinset.1 hc) (List.mem_toFinset.1 hc') hm hm'
  rw [hbelow, Finset.sum_insert hself, Finset.sum_biUnion hdisjoint,
    List.sum_toFinset _ (nodup_children ht hnode)]

end IsTree

end Down

/-! ## Walks through a tree -/

/-- The weights of the nodes that a walk will meet in a tree. -/
def Walk.weights (t : ByteTrie) (weight : Nat → Nat) (w : Walk) : Nat :=
  (w.stack.map fun f => ∑ m ∈ t.below f.node, weight m).sum

/-- One for the nodes where a key ends. -/
def keysAt (t : ByteTrie) (node : Nat) : Nat := if t.terminal.get? node = some true then 1 else 0

theorem length_toList_keyAt? (t : ByteTrie) (node : Nat) {β : Type} (f : Nat → β) :
    ((t.keyAt? node).map f).toList.length = t.keysAt node := by
  unfold keyAt? keysAt
  split
  · rfl
  · rfl

namespace IsTree

variable {t : ByteTrie} {w : Walk}

/-- **One step of a walk through a tree** takes a node of the stack, and leaves the nodes below it
to be met. -/
theorem meet_cases (h : t.IsTree) (ht : t.wellShaped)
    (hw : ∀ f ∈ w.stack, f.node < t.nodeCount) :
    (t.meet w = none ∧ w.stack = []) ∨ ∃ node entry w', t.meet w = some (entry, w') ∧
      entry.toList.length = t.keysAt node ∧ (∀ f ∈ w'.stack, f.node < t.nodeCount) ∧
      ∀ weight, w.weights t weight = weight node + w'.weights t weight := by
  obtain ⟨stack, key⟩ := w
  cases stack with
  | nil => exact .inl ⟨rfl, rfl⟩
  | cons f rest =>
    obtain ⟨hnode, hrest⟩ := List.forall_mem_cons.1 hw
    refine .inr ⟨f.node, _, _, rfl, t.length_toList_keyAt? f.node _, ?_, ?_⟩
    · intro g hg
      rcases List.mem_append.1 hg with hg | hg
      · obtain ⟨c, hc, rfl⟩ := List.mem_map.1 hg
        exact lt_nodeCount_of_mem_children ht hnode hc
      · exact hrest g hg
    · intro weight
      simp only [Walk.weights, List.map_cons, List.sum_cons, List.map_append, List.sum_append,
        List.map_map]
      rw [h.sum_below ht hnode, Nat.add_assoc]
      rfl

/-- **A walk through a tree** ends when it has met all nodes below its first ones, and gives as many
entries as keys end there. -/
theorem walk_ends (h : t.IsTree) (ht : t.wellShaped) {steps : Nat}
    (hw : ∀ f ∈ w.stack, f.node < t.nodeCount) (hsteps : w.weights t (fun _ => 1) ≤ steps) :
    (t.after steps w).stack = [] ∧ (t.entriesOf steps w).length = w.weights t t.keysAt := by
  induction steps generalizing w with
  | zero =>
    obtain ⟨-, hstack⟩ | ⟨node, entry, w', -, -, -, hweights⟩ := h.meet_cases ht hw
    · exact ⟨hstack, by rw [Walk.weights, hstack]; rfl⟩
    · have := hweights fun _ => 1
      omega
  | succ steps ih =>
    rw [after, entriesOf]
    obtain ⟨hmeet, hstack⟩ | ⟨node, entry, w', hmeet, hentry, hw', hweights⟩ := h.meet_cases ht hw
    · rw [hmeet]
      exact ⟨hstack, by rw [Walk.weights, hstack]; rfl⟩
    · have hone := hweights fun _ => 1
      obtain ⟨hend, hlength⟩ := ih hw' (by omega)
      rw [hmeet]
      refine ⟨hend, ?_⟩
      rw [List.length_append, hentry, hlength, ← hweights]

theorem sum_keysAt (ht : t.wellShaped) : ∑ m ∈ Finset.range t.nodeCount, t.keysAt m = t.size := by
  obtain ⟨-, -, -, hsize⟩ := wellShaped_iff.1 ht
  rw [← hsize]
  exact t.terminal.sum_get?

/-- A walk through a tree meets every node, and gives an entry for every key. -/
theorem entries_of_tree (h : t.IsTree) (ht : t.wellShaped) :
    (∀ steps, t.nodeCount ≤ steps → (t.after steps (t.walkFrom [])).stack = []) ∧
      t.entries.length = t.size := by
  have hroot : ∀ f ∈ (t.walkFrom []).stack, f.node < t.nodeCount := by
    intro f hf
    obtain rfl := List.mem_singleton.1 hf
    exact Nat.pos_of_ne_zero (wellShaped_iff.1 ht).1
  have hweights : ∀ weight, (t.walkFrom []).weights t weight =
      ∑ m ∈ Finset.range t.nodeCount, weight m := by
    intro weight
    rw [← h.below_zero]
    exact Nat.add_zero _
  have hone : (t.walkFrom []).weights t (fun _ => 1) = t.nodeCount := by
    rw [hweights, Finset.sum_const, Finset.card_range, smul_eq_mul, Nat.mul_one]
  constructor
  · intro steps hsteps
    exact (h.walk_ends ht hroot (hone.trans_le hsteps)).1
  · rw [entries, withPrefix, (h.walk_ends ht hroot hone.le).2, hweights, sum_keysAt ht]

end IsTree

/-! ## Walks that do not end -/

theorem climb_of_parent_eq_self {t : ByteTrie} {node : Nat} (h : t.parent node = some node)
    (steps : Nat) : t.climb steps node = some node := by
  induction steps with
  | zero => rfl
  | succ steps ih => rw [climb_succ, ih, Option.bind_eq_bind, Option.bind_some, h]

/-- A walk stays at a node that is the first of its own children. -/
theorem head_after {t : ByteTrie} {w : Walk} {node : Nat} {children : List Nat}
    (h : t.children node = node :: children) (hw : w.stack.head?.map Frame.node = some node)
    (steps : Nat) : (t.after steps w).stack.head?.map Frame.node = some node := by
  induction steps generalizing w with
  | zero => exact hw
  | succ steps ih =>
    obtain ⟨stack, key⟩ := w
    cases stack with
    | nil => cases hw
    | cons f rest =>
      obtain rfl := Option.some.inj hw
      refine ih ?_
      rw [h]
      rfl

/-- The walk through all keys does not end if the root is the first of its own children. -/
theorem stack_after_ne_nil {t : ByteTrie} {children : List Nat} (h : t.children 0 = 0 :: children)
    (steps : Nat) : (t.after steps (t.walkFrom [])).stack ≠ [] := by
  have hroot : (t.walkFrom []).stack.head?.map Frame.node = some 0 := rfl
  intro hend
  have hhead := head_after h hroot steps
  rw [hend] at hhead
  cases hhead

/-! ## Stored tries -/

/-- **The ways through a stored trie.**  Whatever trie is read, a way up from a node ends at the
root and comes to smaller numbers with every step, or it comes to a node without a parent, or it
never gets to the root.  If the trie is a tree, then every key is found from its identifier on a way
through existing nodes that is no longer than the number of its node, and the walk through all keys
ends and gives all of them. -/
theorem ways_of_read {c c' : Cursor} {t : ByteTrie} (h : read c = .ok t c') :
    (∀ node,
      (∃ steps ≤ node, t.climb steps node = some 0 ∧
          ∀ k ≤ steps, ∃ m, t.climb k node = some m ∧ m + k ≤ node) ∨
        (∃ steps m, t.climb steps node = some m ∧ m ≤ node ∧ m ≠ 0 ∧ t.parent m = none) ∨
        ((∃ steps m p, t.climb steps node = some m ∧ m ≤ node ∧ t.parent m = some p ∧ m ≤ p) ∧
          ∀ steps, t.climb steps node ≠ some 0)) ∧
      (t.IsTree →
        (∀ id < t.size, ∃ node < t.nodeCount, t.terminal.select1 id = some node ∧
          (∃ steps ≤ node, t.climb steps node = some 0 ∧
            ∀ k ≤ steps, ∃ m, t.climb k node = some m ∧ m + k ≤ node) ∧
          ∃ key, t.key id = .ok key) ∧
        (∀ steps, t.nodeCount ≤ steps → (t.after steps (t.walkFrom [])).stack = []) ∧
        t.entries.length = t.size) := by
  have ht := wellShaped_of_read h
  refine ⟨t.climb_cases, fun htree => ⟨?_, htree.entries_of_tree ht⟩⟩
  intro id hid
  obtain ⟨node, hselect⟩ := BitVector.exists_select1 hid
  have hnode : node < t.nodeCount := by
    obtain ⟨-, -, -, hsize⟩ := wellShaped_iff.1 ht
    obtain ⟨hbit, -⟩ := (t.terminal.select1_eq_some_iff id node).1 hselect
    rw [← hsize, BitVector.size_eq]
    exact (List.getElem?_eq_some_iff.1 hbit).1
  obtain ⟨steps, hsteps, hroot, hway⟩ := htree.exists_climb hnode
  refine ⟨node, hnode, hselect, ⟨steps, hsteps, hroot, hway⟩, ?_⟩
  rw [key, hselect]
  apply exists_pathTo (hsteps.trans hnode.le) hroot
  intro j hj
  obtain ⟨m, hm, hle⟩ := hway j hj
  exact ⟨m, hm, by omega⟩

/-- A stored trie of two nodes with the given tree bits and marked nodes. -/
def twoNodes (tree terminal : UInt8) : List UInt8 :=
  [2, 0, 0, 0, 0, 0, 0, 0, 5, 0, 0, 0, 0, 0, 0, 0, tree, 0, 0, 0, 0, 0, 0, 0] ++
    [2, 0, 0, 0, 0, 0, 0, 0, terminal, 0, 0, 0, 0, 0, 0, 0, 0, 97, 0, 0, 0, 0, 0, 0]

/-- The tree bits 10100 are those of a root with one child. -/
theorem ways_of_two_nodes : ∃ t c', read (Cursor.start (View.ofList (twoNodes 5 2))) = .ok t c' ∧
    t.IsTree ∧ t.entries.length = 1 := by
  have hread : ∃ c', read (Cursor.start (View.ofList (twoNodes 5 2))) = .ok
      ⟨BitVector.ofList [true, false, true, false, false], BitVector.ofList [false, true],
        #[0, 97]⟩ c' := ⟨_, by cbv⟩
  obtain ⟨c', hread⟩ := hread
  obtain ⟨-, htree⟩ := ways_of_read hread
  have ht : IsTree ⟨BitVector.ofList [true, false, true, false, false],
      BitVector.ofList [false, true], #[0, 97]⟩ := by decide +kernel
  exact ⟨_, c', hread, ht, (htree ht).2.2⟩

/-- **Shapes without an end are accepted.**  In the first trie the node of the only key is its own
parent, so that no way leads from it to the root.  In the second one the parent of node 1 is beyond
the last node, and in the third one it has no parent.  In the fourth one both nodes have the root as
their parent, so that the walk through all keys comes back to the root at every step. -/
theorem read_accepts_cycles :
    (∃ t c', read (Cursor.start (View.ofList (twoNodes 9 2))) = .ok t c' ∧ t.nodeCount = 2 ∧
      t.size = 1 ∧ t.terminal.select1 0 = some 1 ∧ t.parent 1 = some 1 ∧
      ∀ steps, t.climb steps 1 = some 1) ∧
    (∃ t c', read (Cursor.start (View.ofList (twoNodes 17 2))) = .ok t c' ∧ t.nodeCount = 2 ∧
      t.size = 1 ∧ t.terminal.select1 0 = some 1 ∧ t.parent 1 = some 2) ∧
    (∃ t c', read (Cursor.start (View.ofList (twoNodes 3 2))) = .ok t c' ∧ t.nodeCount = 2 ∧
      t.size = 1 ∧ t.terminal.select1 0 = some 1 ∧ t.parent 1 = none) ∧
    ∃ t c', read (Cursor.start (View.ofList (twoNodes 6 3))) = .ok t c' ∧ t.nodeCount = 2 ∧
      t.size = 2 ∧ t.parent 1 = some 0 ∧
      ∀ steps, (t.after steps (t.walkFrom [])).stack ≠ [] := by
  refine ⟨⟨⟨BitVector.ofList [true, false, false, true, false], BitVector.ofList [false, true],
        #[0, 97]⟩, _, by cbv, rfl, rfl, by cbv, by cbv, ?ownParent⟩,
    ⟨⟨BitVector.ofList [true, false, false, false, true], BitVector.ofList [false, true],
        #[0, 97]⟩, _, by cbv, rfl, rfl, by cbv, by cbv⟩,
    ⟨⟨BitVector.ofList [true, true, false, false, false], BitVector.ofList [false, true],
        #[0, 97]⟩, _, by cbv, rfl, rfl, by cbv, by cbv⟩,
    ⟨⟨BitVector.ofList [false, true, true, false, false], BitVector.ofList [true, true],
        #[0, 97]⟩, _, by cbv, rfl, rfl, by cbv, ?ownChild⟩⟩
  case ownParent => exact climb_of_parent_eq_self (by cbv)
  case ownChild => exact @stack_after_ne_nil _ [1] (by cbv)

end ByteTrie

end Paradigm
