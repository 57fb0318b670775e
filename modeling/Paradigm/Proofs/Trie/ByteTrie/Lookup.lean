import Mathlib
import Paradigm.Proofs.Trie.Shape

/-!
# Lookups in stored tries

The children of a node are a run of nodes whose ends are found by counting bits, and the child with
a label is found by halving the run.  A stored trie is accepted by the numbers of its bits and nodes
alone, whatever its bits are.  These numbers bound all that a lookup counts on its way: a run of
children ends among the nodes, so that every label that is compared is there, and the identifier of
a key is less than the number of keys.

## Main definitions

* `ByteTrie.tryChildSpan`, `ByteTrie.tryChild`: one step of a lookup, with all indexes and
  differences checked
* `ByteTrie.tryWalk`, `ByteTrie.tryLookup`: a whole lookup

## Main results

* `ByteTrie.tryChildSpan_cases`: where the children of a node are
* `ByteTrie.tryChild_eq`, `ByteTrie.tryWalk_eq`: the checks hold at every step, and on every way
* `ByteTrie.tryLookup_eq`, `ByteTrie.lookup_lt_size`: every lookup ends with a miss or with one of
  the identifiers
-/

namespace Paradigm

namespace ByteTrie

/-! ## Checked steps -/

/-- The number of the first child of a node and the number of children. -/
def tryChildSpan (t : ByteTrie) (node : Nat) : Checked (Option (Nat × Nat)) := do
  match ← t.tree.trySelect0 node with
  | none => return none
  | some before =>
    match ← t.tree.trySelect0 (node + 1) with
    | none => return none
    | some stop => return some (← t.tree.tryRank1 (before + 1), ← Checked.sub stop (before + 1))

/-- Halves a run of nodes until one is left, and looks at the labels on the way. -/
def tryBisect (t : ByteTrie) (x : UInt8) (first count : Nat) : Checked Nat := do
  if 1 < count then
    let half := count / 2
    let label ← Checked.element t.labels (first + half)
    tryBisect t x (if x < label then first else first + half) (count - half)
  else return first
  termination_by count

/-- The child of a node with a given label. -/
def tryChild (t : ByteTrie) (node : Nat) (x : UInt8) : Checked (Option Nat) := do
  match ← t.tryChildSpan node with
  | none => return none
  | some (first, count) =>
    if count = 0 then return none
    let found ← t.tryBisect x first count
    return if (← Checked.element t.labels found) = x then some found else none

/-- The node at the end of a path that goes on from a node. -/
def tryWalk (t : ByteTrie) (node : Nat) : List UInt8 → Checked (Option Nat)
  | [] => return some node
  | x :: path => do
    match ← t.tryChild node x with
    | none => return none
    | some child => tryWalk t child path

/-- The identifier of the key that ends at a node. -/
def tryKeyAt? (t : ByteTrie) (node : Nat) : Checked (Option Nat) := do
  if (← t.terminal.tryGet node) = some true then return some (← t.terminal.tryRank1 node)
  else return none

/-- The identifier of a key. -/
def tryLookup (t : ByteTrie) (key : List UInt8) : Checked (Option Nat) := do
  match ← t.tryWalk 0 key with
  | none => return none
  | some node => t.tryKeyAt? node

variable {t : ByteTrie}

/-! ## One step -/

/-- **The children of a node** are nodes of the trie, if the node has an end of its children. -/
theorem tryChildSpan_cases (ht : t.wellShaped) (node : Nat) :
    (t.childSpan node = none ∧ t.tryChildSpan node = .ok none) ∨
      ∃ first count, t.childSpan node = some (first, count) ∧
        t.tryChildSpan node = .ok (some (first, count)) ∧ first + count ≤ t.nodeCount := by
  obtain ⟨-, -, hcount, -⟩ := wellShaped_iff.1 ht
  rw [tryChildSpan, childSpan, t.tree.trySelect0_eq_select0, Except.ok_bind]
  cases hbefore : t.tree.select0 node with
  | none => exact .inl ⟨rfl, rfl⟩
  | some before =>
    dsimp only
    rw [t.tree.trySelect0_eq_select0, Except.ok_bind]
    cases hstop : t.tree.select0 (node + 1) with
    | none => exact .inl ⟨rfl, rfl⟩
    | some stop =>
      dsimp only
      -- the set bits up to the end are at most all, which are as many as there are nodes
      have hend := BitVector.rank1_between hbefore hstop
      have hall := t.tree.rank1_le_count stop
      refine .inr ⟨_, _, rfl, ?_, by omega⟩
      rw [t.tree.tryRank1_eq_rank1, Except.ok_bind,
        Checked.sub_eq_ok (BitVector.select0_lt hbefore hstop)]
      rfl

theorem element_labels {node : Nat} (h : node < t.nodeCount) :
    Checked.element t.labels node = .ok (t.label node) := by
  have hget : t.labels[node]? = some t.labels[node] := Array.getElem?_eq_getElem h
  rw [Checked.element_eq_ok, label, hget]
  rfl

/-- All labels of a run among the nodes can be compared. -/
theorem tryBisect_eq (x : UInt8) {first count : Nat} (hpos : 0 < count)
    (hend : first + count ≤ t.nodeCount) :
    t.tryBisect x first count = .ok (t.bisect x first count) := by
  fun_induction tryBisect t x first count with
  | case1 first count hlt half ih =>
    have hhalf : half = count / 2 := rfl
    have hmid : first + half < t.nodeCount := by omega
    rw [bisect, if_pos hlt, element_labels hmid, Except.ok_bind]
    refine ih _ ?_ ?_
    · omega
    · split_ifs
      · omega
      · omega
  | case2 first count hge =>
    rw [bisect, if_neg hge]
    rfl

/-- **One step of a lookup** misses no label. -/
theorem tryChild_eq (ht : t.wellShaped) (node : Nat) (x : UInt8) :
    t.tryChild node x = .ok (t.child node x) := by
  rw [tryChild, child]
  obtain ⟨hspan, htry⟩ | ⟨first, count, hspan, htry, hend⟩ := tryChildSpan_cases ht node
  · rw [hspan, htry]
    rfl
  · rw [hspan, htry, Except.ok_bind]
    dsimp only
    by_cases hzero : count = 0
    · simp [hzero]
    · have hpos := Nat.pos_of_ne_zero hzero
      have hlt : t.bisect x first count < first + count := (bisect_mem t x hpos).2
      rw [if_neg hzero, tryBisect_eq x hpos hend, Except.ok_bind,
        element_labels (hlt.trans_le hend), Except.ok_bind]
      simp [hpos]

/-! ## Whole lookups -/

/-- **All steps of a lookup** can be made, from every node. -/
theorem tryWalk_eq (ht : t.wellShaped) (node : Nat) (path : List UInt8) :
    t.tryWalk node path = .ok (path.foldlM t.child node) := by
  induction path generalizing node with
  | nil => rfl
  | cons x path ih =>
    rw [tryWalk, tryChild_eq ht, Except.ok_bind, List.foldlM_cons]
    cases t.child node x with
    | none => rfl
    | some c => exact ih c

/-- **Every lookup in a stored trie ends**, and all numbers on the way are in range. -/
theorem tryLookup_eq (ht : t.wellShaped) (key : List UInt8) :
    t.tryLookup key = .ok (t.lookup key) := by
  rw [tryLookup, tryWalk_eq ht, Except.ok_bind, lookup, node?]
  cases key.foldlM t.child 0 with
  | none => rfl
  | some node =>
    show t.tryKeyAt? node = .ok (t.keyAt? node)
    rw [tryKeyAt?, keyAt?, t.terminal.tryGet_eq_get?, Except.ok_bind]
    split_ifs
    · rw [t.terminal.tryRank1_eq_rank1]
      rfl
    · rfl

/-- A marked node has fewer marked nodes before it than there are. -/
theorem keyAt?_lt_size {node id : Nat} (h : t.keyAt? node = some id) : id < t.size := by
  unfold keyAt? at h
  split at h
  next hbit =>
    obtain rfl := Option.some.inj h
    rw [BitVector.get?_eq] at hbit
    have hselect : t.terminal.select1 (t.terminal.rank1 node) = some node :=
      (t.terminal.select1_eq_some_iff _ node).2 ⟨hbit, (t.terminal.rank1_eq node).symm⟩
    by_contra hge
    rw [(t.terminal.select1_eq_none_iff _).2 (Nat.le_of_not_lt hge)] at hselect
    cases hselect
  next => cases h

/-- The identifier of a key is less than the number of keys. -/
theorem lookup_lt_size {key : List UInt8} {id : Nat} (h : t.lookup key = some id) :
    id < t.size := by
  obtain ⟨node, -, hid⟩ := Option.bind_eq_some_iff.1 h
  exact keyAt?_lt_size hid

end ByteTrie

end Paradigm
