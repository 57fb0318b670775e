import Mathlib
import Paradigm.Proofs.Trie.Shape

/-!
# The trie of a list of keys

The trie of a list of keys is determined by the beginnings of the keys: these are its nodes, in
shortlex order, and all that is stored about a node is its last byte, whether it is a key, and how
many bytes lead on from it.  Neither the order nor the repetitions of the keys leave a trace.  Such
a trie has the shape that is asked for when it is read, so that the room for its bits is all that
may keep it from being stored and read back.

## Main results

* `ByteTrie.ofKeys_congr`: tries of the same keys
* `ByteTrie.exists_write`, `ByteTrie.exists_write_eq_error`: the tries that can be stored
* `ByteTrie.ofKeys_shape`: the nodes, labels and bits of the trie of a list of keys
-/

namespace Paradigm

theorem BitVector.exists_write {v : BitVector} (h : v.size < countLimit) (out : Writer) :
    ∃ out', v.write out = .ok out' := by
  rw [write, Writer.putCount, if_pos h]
  exact ⟨_, rfl⟩

namespace ByteTrie

variable {t u : ByteTrie}

/-! ## Equal tries -/

theorem ext_parts (htree : t.tree = u.tree) (hterminal : t.terminal = u.terminal)
    (hlabels : t.labels = u.labels) : t = u := by
  cases t
  cases u
  rw [mk.injEq]
  exact ⟨htree, hterminal, hlabels⟩

/-- Tries that stand for the same nodes and the same keys are equal. -/
theorem Represents.eq {nodes keys : List (List UInt8)} (ht : t.Represents nodes keys)
    (hu : u.Represents nodes keys) : t = u := by
  apply ext_parts
  · exact BitVector.ext_toList (ht.tree.trans hu.tree.symm)
  · exact BitVector.ext_toList (ht.terminal.trans hu.terminal.symm)
  · exact Array.toList_inj.1 (ht.labels.trans hu.labels.symm)

/-- Tries of the same keys are equal. -/
theorem ofKeys_congr {keys keys' : List (List UInt8)} (h : ∀ k, k ∈ keys ↔ k ∈ keys') :
    ofKeys keys = ofKeys keys' := by
  have hkeys : distinctPaths keys = distinctPaths keys' := by
    apply eq_of_pairwise_precedes (pairwise_distinctPaths _) (pairwise_distinctPaths _)
    intro p
    rw [mem_distinctPaths, mem_distinctPaths, h]
  have hnodes : nodePaths keys = nodePaths keys' := by
    apply eq_of_pairwise_precedes (pairwise_distinctPaths _) (pairwise_distinctPaths _)
    intro p
    show p ∈ nodePaths keys ↔ p ∈ nodePaths keys'
    simp only [mem_nodePaths, h]
  have hrepresents := represents_ofKeys keys
  rw [hkeys, hnodes] at hrepresents
  exact hrepresents.eq (represents_ofKeys keys')

/-! ## The stored form -/

/-- A trie can be stored if the number of its tree bits can. -/
theorem exists_write (ht : t.wellShaped) (h : 2 * t.nodeCount + 1 < countLimit) (out : Writer) :
    ∃ out', t.write out = .ok out' := by
  obtain ⟨-, htree, -, hterminal⟩ := wellShaped_iff.1 ht
  have hnodes : t.nodeCount < countLimit := by omega
  obtain ⟨o₁, h₁⟩ := BitVector.exists_write (htree ▸ h)
    ((out.put (Int32.ofNat t.nodeCount)).put (0 : Int32))
  obtain ⟨o₂, h₂⟩ := BitVector.exists_write (hterminal ▸ hnodes) o₁
  rw [write, Writer.putCount, if_pos hnodes, Except.ok_bind, h₁, Except.ok_bind, h₂]
  exact ⟨_, rfl⟩

/-- A trie with more tree bits is refused with a number that cannot be stored. -/
theorem exists_write_eq_error (ht : t.wellShaped) (h : countLimit ≤ 2 * t.nodeCount + 1)
    (out : Writer) :
    ∃ count ≥ countLimit, t.write out = .error (.corrupt (.countTooLarge count)) := by
  obtain ⟨-, htree, -, -⟩ := wellShaped_iff.1 ht
  rw [write, Writer.putCount]
  split
  · -- the nodes can be counted, and the tree bits cannot
    refine ⟨_, h, ?_⟩
    rw [Except.ok_bind, BitVector.write, Writer.putCount, htree, if_neg (Nat.not_lt.2 h)]
    rfl
  · rename_i hnodes
    exact ⟨_, Nat.le_of_not_lt hnodes, rfl⟩

/-! ## The nodes of the trie -/

/-- The tree bits of a trie: the run of the node above the root, and then for each node a set bit
for every byte that leads to a longer path, and a clear bit. -/
theorem Represents.tree_eq {nodes keys : List (List UInt8)} (h : t.Represents nodes keys) :
    t.tree.toList = true :: false :: nodes.flatMap fun q =>
      List.replicate (Finset.univ.filter fun x => q ++ [x] ∈ nodes).card true ++ [false] := by
  rw [h.tree, unary_cons, List.replicate_one, List.singleton_append, unary, degrees,
    List.flatMap_map]
  simp only [h.order.length_childrenOf]

/-- **The shape of the trie of a list of keys.**  Its nodes are the beginnings of the keys and the
empty path, in shortlex order.  The label of a node is the last byte of its path, and zero at the
root; the terminal bit tells whether the path is a key; the tree bits are those of a node above the
root, and then for each node a set bit for every byte that leads to another node, and a clear bit.
Any list of the same keys gives the same trie.  The trie has the shape that is asked for when it is
read, and it is read back wherever it is stored. -/
theorem ofKeys_shape (keys : List (List UInt8)) :
    (nodePaths keys).Pairwise Precedes ∧
    (∀ q, q ∈ nodePaths keys ↔ q = [] ∨ ∃ key ∈ keys, q <+: key) ∧
    (ofKeys keys).nodeCount = (nodePaths keys).length ∧
    (ofKeys keys).labels.toList = (nodePaths keys).map (·.getLastD 0) ∧
    (ofKeys keys).terminal.toList = (nodePaths keys).map (fun q => decide (q ∈ keys)) ∧
    (ofKeys keys).tree.toList = true :: false :: (nodePaths keys).flatMap (fun q =>
      List.replicate (Finset.univ.filter fun x => q ++ [x] ∈ nodePaths keys).card true ++
        [false]) ∧
    (∀ keys', (∀ k, k ∈ keys' ↔ k ∈ keys) → ofKeys keys' = ofKeys keys) ∧
    (ofKeys keys).wellShaped ∧
    ∀ out, 2 * (nodePaths keys).length + 1 < 2 ^ 31 →
      ∃ out', (ofKeys keys).write out = .ok out' ∧ ReadsBack out out' read (ofKeys keys) := by
  have h := represents_ofKeys keys
  refine ⟨h.order.sorted, fun q => mem_nodePaths, h.nodeCount_eq, h.labels, ?_, h.tree_eq,
    fun keys' => ofKeys_congr, h.wellShaped, fun out hroom => ?_⟩
  · rw [h.terminal]
    simp only [mem_distinctPaths]
  · rw [← h.nodeCount_eq] at hroom
    obtain ⟨out', hout⟩ := exists_write h.wellShaped hroom out
    exact ⟨out', hout, readsBack_write h.wellShaped hout⟩

theorem ofKeys_shape_branches :
    (∀ k : List UInt8, k ∈ [[1, 1], [2], []] ↔ k ∈ [[2], [1, 1], [], [2]]) ∧
      ofKeys [[1, 1], [2], []] = ofKeys [[2], [1, 1], [], [2]] ∧
      2 * (nodePaths [[2], [1, 1], [], [2]]).length + 1 < 2 ^ 31 ∧
      ∃ out', (ofKeys [[2], [1, 1], [], [2]]).write .empty = .ok out' ∧
        ReadsBack .empty out' read (ofKeys [[2], [1, 1], [], [2]]) := by
  have hmem : ∀ k : List UInt8, k ∈ [[1, 1], [2], []] ↔ k ∈ [[2], [1, 1], [], [2]] := by
    intro k
    simp only [List.mem_cons, List.not_mem_nil, or_false]
    tauto
  have hnodes : nodePaths [[2], [1, 1], [], [2]] = [[], [1], [2], [1, 1]] := by cbv
  have hroom : 2 * (nodePaths [[2], [1, 1], [], [2]]).length + 1 < 2 ^ 31 := by
    rw [hnodes]
    decide
  obtain ⟨-, -, -, -, -, -, hsame, -, hstored⟩ := ofKeys_shape [[2], [1, 1], [], [2]]
  exact ⟨hmem, hsame _ hmem, hroom, hstored .empty hroom⟩

example : (ofKeys [[2], [1, 1], [], [2]]).tree.toList =
    [true, false] ++ [true, true, false] ++ [true, false] ++ [false] ++ [false] := by cbv

end ByteTrie

end Paradigm
