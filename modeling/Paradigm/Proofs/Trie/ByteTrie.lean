import Mathlib
import Paradigm.Proofs.Trie.Growing
import Paradigm.Trie.ByteTrie

/-!
# Walking in a trie

A trie stands for a list of nodes in level order and a list of keys among them.  Each step of a walk
goes from the number of a node to the number of its parent or of one of its children, and the
identifiers of the keys are their places in the list of keys.

## Main definitions

* `ByteTrie.Represents`: a trie stands for nodes and keys

## Main results

* `ByteTrie.represents_ofKeys`: the trie of a list of keys
* `ByteTrie.Represents.child_eq_some_iff`, `ByteTrie.Represents.parent_child`: steps down and up
* `ByteTrie.Represents.lookup_eq_some_iff`, `ByteTrie.Represents.key_eq_ok`: from a key to its
  identifier and back
* `ByteTrie.ofKeys_numbers_keys`: the keys are numbered in shortlex order
* `ByteTrie.readsBack_write`: the stored form is read back
-/

namespace Paradigm

namespace ByteTrie

/-- A trie stands for a tree in level order, some of whose nodes are keys. -/
structure Represents (t : ByteTrie) (nodes keys : List (List UInt8)) : Prop where
  order : LevelOrder nodes
  tree : t.tree.toList = unary (1 :: degrees nodes)
  terminal : t.terminal.toList = nodes.map fun p => decide (p ∈ keys)
  labels : t.labels.toList = nodes.map (·.getLastD 0)
  sorted : keys.Pairwise Precedes
  key_mem : ∀ k ∈ keys, k ∈ nodes

theorem tree_ofKeys (keys : List (List UInt8)) :
    (ofKeys keys).tree.toList = unary (1 :: degrees (nodePaths keys)) := by
  have hdegrees : degrees (nodePaths keys) =
      (GrowingTrie.located keys).map fun c => c.2.children.length := by
    rw [degrees, ← GrowingTrie.paths_located keys, List.map_map]
    refine List.map_congr_left fun c hc => ?_
    rw [Function.comp_apply, GrowingTrie.paths_located, ← GrowingTrie.map_fst_locatedChildren hc]
    simp [GrowingTrie.locatedChildren]
  rw [unary_cons, hdegrees]
  simp [ofKeys, unary, ← GrowingTrie.map_snd_located, List.flatMap_map]

theorem terminal_ofKeys (keys : List (List UInt8)) :
    (ofKeys keys).terminal.toList =
      (nodePaths keys).map fun p => decide (p ∈ distinctPaths keys) := by
  rw [ofKeys, BitVector.toList_ofList, ← GrowingTrie.paths_located keys,
    ← GrowingTrie.map_snd_located, List.map_map, List.map_map]
  refine List.map_congr_left fun c hc => ?_
  simp only [Function.comp_apply, mem_distinctPaths]
  exact GrowingTrie.terminal_of_mem_located hc

theorem labels_ofKeys (keys : List (List UInt8)) :
    (ofKeys keys).labels.toList = (nodePaths keys).map (·.getLastD 0) := by
  rw [← GrowingTrie.paths_located keys, List.map_map, GrowingTrie.located_eq_cons]
  -- the root has the label zero, and each other node the one that leads to it
  simp [ofKeys, ← GrowingTrie.map_snd_located, List.flatMap_map, List.map_flatMap,
    GrowingTrie.locatedChildren, Function.comp_def]

/-- The trie of a list of keys stands for these keys without repetitions. -/
theorem represents_ofKeys (keys : List (List UInt8)) :
    (ofKeys keys).Represents (nodePaths keys) (distinctPaths keys) where
  order := LevelOrder.nodePaths keys
  tree := tree_ofKeys keys
  terminal := terminal_ofKeys keys
  labels := labels_ofKeys keys
  sorted := pairwise_distinctPaths keys
  key_mem := fun k hk => mem_nodePaths.2 (.inr ⟨k, mem_distinctPaths.1 hk, List.prefix_rfl⟩)

namespace Represents

variable {t : ByteTrie} {nodes keys : List (List UInt8)} {v : Nat} {p : List UInt8}

theorem nodeCount_eq (h : t.Represents nodes keys) : t.nodeCount = nodes.length := by
  rw [nodeCount, ← Array.length_toList, h.labels, List.length_map]

theorem getElem?_labels (h : t.Represents nodes keys) {x : UInt8}
    (hv : nodes[v]? = some (p ++ [x])) : t.labels[v]? = some x := by
  rw [← Array.getElem?_toList, h.labels, List.getElem?_map, hv]
  simp

theorem label_eq (h : t.Represents nodes keys) {x : UInt8} (hv : nodes[v]? = some (p ++ [x])) :
    t.label v = x := by
  rw [label, h.getElem?_labels hv, Option.getD_some]

/-! ## Down -/

/-- The run of the children of a node. -/
theorem childSpan_eq (h : t.Represents nodes keys) (hv : nodes[v]? = some p) :
    t.childSpan v = some (firstChild nodes v, (childrenOf nodes p).length) := by
  obtain ⟨hlt, hd⟩ := List.getElem?_eq_some_iff.1 (getElem?_degrees hv)
  have hlen : v + 1 < (1 :: degrees nodes).length := Nat.succ_lt_succ hlt
  have hstop : ((1 :: degrees nodes).take (v + 1 + 1)).sum =
      firstChild nodes v + (childrenOf nodes p).length := by
    rw [sum_take_succ_eq _ hlen, sum_take_degrees, List.getElem_cons_succ, hd]
  -- the children are the units between two ends of runs
  have hstart := BitVector.select0_unary h.tree (Nat.lt_of_succ_lt hlen)
  have hend := BitVector.select0_unary h.tree hlen
  have hrank := BitVector.rank1_unary h.tree hlen.le
  rw [sum_take_degrees] at hstart hrank
  rw [hstop] at hend
  rw [childSpan, hstart, hend]
  show some (t.tree.rank1 (firstChild nodes v + v + 1), _) = _
  rw [Nat.add_assoc, hrank]
  congr 2
  omega

/-- The children of a node by their numbers. -/
theorem children_eq (h : t.Represents nodes keys) (hv : nodes[v]? = some p) :
    t.children v = List.range' (firstChild nodes v) (childrenOf nodes p).length := by
  rw [children, h.childSpan_eq hv]

end Represents

theorem bisect_mem (t : ByteTrie) (x : UInt8) {first count : Nat} (h : 0 < count) :
    first ≤ t.bisect x first count ∧ t.bisect x first count < first + count := by
  fun_induction bisect t x first count with
  | case1 first count hcount half ih =>
    have hhalf : half = count / 2 := rfl
    have hmem := ih (by omega)
    by_cases hbelow : x < t.label (first + half)
    · rw [dif_pos hbelow] at hmem
      rw [if_pos hbelow]
      omega
    · rw [dif_neg hbelow] at hmem
      rw [if_neg hbelow]
      omega
  | case2 => omega

/-- Halving a run whose labels rise ends at the label that is looked for. -/
theorem bisect_eq (t : ByteTrie) (x : UInt8) {first count i : Nat}
    (hrise : ∀ a b, first ≤ a → a < b → b < first + count → t.label a < t.label b)
    (hlow : first ≤ i) (hhigh : i < first + count) (hx : t.label i = x) :
    t.bisect x first count = i := by
  fun_induction bisect t x first count with
  | case1 first count hcount half ih =>
    have hhalf : half = count / 2 := rfl
    split at ih
    · rename_i hbelow
      rw [if_pos hbelow]
      -- the label is in the lower half, since labels rise
      have hi : i < first + half := by
        by_contra hge
        rcases Nat.eq_or_lt_of_le (Nat.le_of_not_lt hge) with heq | hlt
        · rw [← hx, heq] at hbelow
          exact UInt8.lt_irrefl _ hbelow
        · have hrises := hrise (first + half) i (by omega) hlt hhigh
          rw [hx] at hrises
          exact UInt8.lt_irrefl _ (UInt8.lt_trans hbelow hrises)
      exact ih (fun a b ha hab hb => hrise a b ha hab (by omega)) hlow (by omega)
    · rename_i hbelow
      rw [if_neg hbelow]
      have hi : first + half ≤ i := by
        by_contra hlt
        have hrises := hrise i (first + half) hlow (by omega) (by omega)
        rw [hx] at hrises
        exact hbelow hrises
      exact ih (fun a b ha hab hb => hrise a b (by omega) hab (by omega)) hi (by omega)
  | case2 => omega

namespace Represents

variable {t : ByteTrie} {nodes keys : List (List UInt8)} {v : Nat} {p : List UInt8}

/-- The child with a label is the node at the end of the longer path. -/
theorem child_eq_some_iff (h : t.Represents nodes keys) (hv : nodes[v]? = some p) {x : UInt8}
    {c : Nat} : t.child v x = some c ↔ nodes[c]? = some (p ++ [x]) := by
  have hchild : t.child v x =
      if 0 < (childrenOf nodes p).length ∧
          t.label (t.bisect x (firstChild nodes v) (childrenOf nodes p).length) = x then
        some (t.bisect x (firstChild nodes v) (childrenOf nodes p).length)
      else none := by
    rw [child, h.childSpan_eq hv]
    rfl
  rw [hchild]
  constructor
  · intro hc
    split at hc
    · rename_i hfound
      obtain ⟨hpos, hlabel⟩ := hfound
      obtain rfl := Option.some.inj hc
      -- halving ends at a child, and the label tells which one
      obtain ⟨hlow, hhigh⟩ := bisect_mem t x hpos
      obtain ⟨j, hj⟩ := Nat.exists_eq_add_of_le hlow
      obtain ⟨y, hy⟩ := h.order.exists_label hv (show j < _ by omega)
      rw [← hj] at hy
      obtain rfl : y = x := (h.label_eq hy).symm.trans hlabel
      exact hy
    · cases hc
  · intro hc
    obtain ⟨u, j, hu, hj, rfl⟩ := h.order.exists_child hc
    obtain rfl : u = v := h.order.number_inj hu hv
    -- the labels of the children rise, so that halving ends at the child
    have hrise : ∀ a b, firstChild nodes u ≤ a → a < b →
        b < firstChild nodes u + (childrenOf nodes p).length → t.label a < t.label b := by
      intro a b ha hab hb
      obtain ⟨y, hy⟩ := h.order.exists_label hu (show a - firstChild nodes u < _ by omega)
      obtain ⟨z, hz⟩ := h.order.exists_label hu (show b - firstChild nodes u < _ by omega)
      rw [Nat.add_sub_cancel' ha] at hy
      rw [Nat.add_sub_cancel' (ha.trans hab.le)] at hz
      rw [h.label_eq hy, h.label_eq hz]
      exact h.order.label_lt hy hz hab
    have hlabel := h.label_eq hc
    rw [bisect_eq t x hrise (by omega) (by omega) hlabel]
    exact if_pos ⟨by omega, hlabel⟩

theorem foldlM_child_eq_some_iff (h : t.Represents nodes keys) (hv : nodes[v]? = some p)
    {path : List UInt8} {w : Nat} :
    path.foldlM t.child v = some w ↔ nodes[w]? = some (p ++ path) := by
  induction path generalizing v p with
  | nil =>
    obtain ⟨hlt, -⟩ := List.getElem?_eq_some_iff.1 hv
    rw [List.append_nil, ← hv, eq_comm (a := nodes[w]?), List.getElem?_inj hlt h.order.nodup]
    simp
  | cons x path ih =>
    rw [List.foldlM_cons, Option.bind_eq_bind, Option.bind_eq_some_iff]
    constructor
    · rintro ⟨c, hc, hw⟩
      rw [h.child_eq_some_iff hv] at hc
      simpa using (ih hc).1 hw
    · intro hw
      have hmem : p ++ [x] ∈ nodes :=
        h.order.mem_of_prefix (List.mem_of_getElem? hw) (by simp)
      obtain ⟨c, hc⟩ := List.mem_iff_getElem?.1 hmem
      exact ⟨c, (h.child_eq_some_iff hv).2 hc, (ih hc).2 (by simpa using hw)⟩

/-- The node at the end of a path. -/
theorem node?_eq_some_iff (h : t.Represents nodes keys) {path : List UInt8} {w : Nat} :
    t.node? path = some w ↔ nodes[w]? = some path :=
  h.foldlM_child_eq_some_iff h.order.getElem?_zero

/-! ## Keys -/

theorem nodup_keys (h : t.Represents nodes keys) : keys.Nodup :=
  Pairwise.nodup_of_irrefl Precedes.irrefl h.sorted

theorem filter_nodes (h : t.Represents nodes keys) : nodes.filter (· ∈ keys) = keys :=
  eq_of_pairwise_precedes (h.order.sorted.filter _) h.sorted fun k => by
    simpa using h.key_mem k

theorem size_eq (h : t.Represents nodes keys) : t.size = keys.length := by
  rw [size, BitVector.count_eq, h.terminal, List.count, List.countP_map]
  conv_rhs => rw [← h.filter_nodes, ← List.countP_eq_length_filter]
  exact List.countP_congr fun p _ => by simp

theorem terminal_rank1 (h : t.Represents nodes keys) (hv : nodes[v]? = some p) {id : Nat}
    (hid : keys[id]? = some p) : t.terminal.rank1 v = id := by
  have hrank : t.terminal.rank1 v = (nodes.take v).countP (· ∈ keys) := by
    rw [BitVector.rank1_eq, h.terminal, ← List.map_take, List.count, List.countP_map]
    exact List.countP_congr fun p _ => by simp
  -- the keys before the node are those of smaller numbers
  have hkey : keys[(nodes.take v).countP (· ∈ keys)]? = some p := by
    have := getElem?_filter (· ∈ keys) hv (by simpa using List.mem_of_getElem? hid)
    rwa [h.filter_nodes] at this
  obtain ⟨hlt, -⟩ := List.getElem?_eq_some_iff.1 hid
  rw [hrank]
  exact ((List.getElem?_inj hlt h.nodup_keys).1 (hid.trans hkey.symm)).symm

theorem terminal_getElem? (h : t.Represents nodes keys) (hv : nodes[v]? = some p) :
    t.terminal.toList[v]? = some (decide (p ∈ keys)) := by
  rw [h.terminal, List.getElem?_map, hv, Option.map_some]

theorem keyAt?_eq_some_iff (h : t.Represents nodes keys) (hv : nodes[v]? = some p) {id : Nat} :
    t.keyAt? v = some id ↔ keys[id]? = some p := by
  simp only [keyAt?, BitVector.get?_eq, h.terminal_getElem? hv, Option.some_inj]
  constructor
  · intro hid
    split at hid
    · rename_i hmem
      obtain ⟨i, hi⟩ := List.mem_iff_getElem?.1 (of_decide_eq_true hmem)
      rw [h.terminal_rank1 hv hi] at hid
      rwa [← Option.some.inj hid]
    · cases hid
  · intro hid
    rw [if_pos (decide_eq_true (List.mem_of_getElem? hid)), h.terminal_rank1 hv hid]

/-- The identifier of a key is its place among the keys. -/
theorem lookup_eq_some_iff (h : t.Represents nodes keys) {k : List UInt8} {id : Nat} :
    t.lookup k = some id ↔ keys[id]? = some k := by
  rw [lookup, Option.bind_eq_bind, Option.bind_eq_some_iff]
  constructor
  · rintro ⟨w, hw, hid⟩
    exact (h.keyAt?_eq_some_iff (h.node?_eq_some_iff.1 hw)).1 hid
  · intro hid
    obtain ⟨w, hw⟩ := List.mem_iff_getElem?.1 (h.key_mem k (List.mem_of_getElem? hid))
    exact ⟨w, h.node?_eq_some_iff.2 hw, (h.keyAt?_eq_some_iff hw).2 hid⟩

/-! ## Up -/

/-- The parent of a child is the node itself, and it has a smaller number. -/
theorem parent_child (h : t.Represents nodes keys) {c : Nat} {x : UInt8}
    (hc : nodes[c]? = some (p ++ [x])) :
    ∃ v, t.parent c = some v ∧ nodes[v]? = some p ∧ v < c := by
  obtain ⟨v, j, hv, hj, rfl⟩ := h.order.exists_child hc
  obtain ⟨hlt, hd⟩ := List.getElem?_eq_some_iff.1 (getElem?_degrees hv)
  have hlen : v + 1 < (1 :: degrees nodes).length := Nat.succ_lt_succ hlt
  have hjd : j < (1 :: degrees nodes)[v + 1] := by rwa [List.getElem_cons_succ, hd]
  have hselect := BitVector.select1_unary h.tree hlen hjd
  have hrank := BitVector.rank0_unary h.tree hlen hjd
  rw [sum_take_degrees] at hselect hrank
  refine ⟨v, ?_, hv, h.order.lt_of_precedes hv hc (.inl (by simp))⟩
  simp only [parent, hselect, Option.bind_eq_bind, Option.bind_some, hrank]

/-- The labels on the way up from a node are those of its path. -/
theorem pathTo_eq (h : t.Represents nodes keys) {steps : Nat} (hsteps : v ≤ steps)
    (hv : nodes[v]? = some p) (below : List UInt8) :
    t.pathTo steps v below = .ok (p ++ below) := by
  induction steps generalizing v p below with
  | zero =>
    obtain rfl : v = 0 := by omega
    obtain rfl : p = [] := Option.some.inj (hv.symm.trans h.order.getElem?_zero)
    rfl
  | succ steps ih =>
    rcases List.eq_nil_or_concat p with rfl | ⟨q, x, rfl⟩
    · obtain rfl : v = 0 := h.order.number_inj hv h.order.getElem?_zero
      rfl
    -- the label of the node comes before those below, and the way goes on at the parent
    · rw [List.concat_eq_append] at hv
      obtain ⟨u, hparent, hu, huv⟩ := h.parent_child hv
      rw [pathTo, if_neg (by omega), Checked.element_eq_ok.2 (h.getElem?_labels hv), hparent]
      show t.pathTo steps u (x :: below) = _
      rw [ih (by omega) hu]
      simp

/-- An identifier leads back to its key. -/
theorem key_eq_ok (h : t.Represents nodes keys) {id : Nat} {k : List UInt8}
    (hid : keys[id]? = some k) : t.key id = .ok k := by
  obtain ⟨v, hv⟩ := List.mem_iff_getElem?.1 (h.key_mem k (List.mem_of_getElem? hid))
  have hselect : t.terminal.select1 id = some v := by
    rw [BitVector.select1_eq_some_iff, ← BitVector.rank1_eq]
    refine ⟨?_, h.terminal_rank1 hv hid⟩
    rw [h.terminal_getElem? hv, decide_eq_true (List.mem_of_getElem? hid)]
  obtain ⟨hlt, -⟩ := List.getElem?_eq_some_iff.1 hv
  rw [key, hselect]
  show t.pathTo t.nodeCount v [] = _
  rw [h.pathTo_eq (by rw [h.nodeCount_eq]; omega) hv, List.append_nil]

theorem key_eq_error (h : t.Represents nodes keys) {id : Nat} (hid : keys.length ≤ id) :
    t.key id = .error (.indexOutOfBounds id keys.length) := by
  have hselect : t.terminal.select1 id = none := by
    rw [BitVector.select1_eq_none_iff]
    exact h.size_eq.trans_le hid
  rw [key, hselect, h.size_eq]

theorem tree_size (h : t.Represents nodes keys) : t.tree.size = 2 * nodes.length + 1 := by
  rw [BitVector.size_eq, h.tree, length_unary, List.sum_cons, List.length_cons, length_degrees]
  have := h.order.sum_degrees
  omega

theorem wellShaped (h : t.Represents nodes keys) : t.wellShaped := by
  have hpos : nodes.length ≠ 0 := by
    have := h.order.sum_degrees
    omega
  have hcount : t.tree.count = nodes.length := by
    rw [BitVector.count_eq, h.tree, count_true_unary, List.sum_cons, h.order.sum_degrees]
  have hterminal : t.terminal.size = nodes.length := by
    rw [BitVector.size_eq, h.terminal, List.length_map]
  simp [ByteTrie.wellShaped, h.nodeCount_eq, h.tree_size, hcount, hterminal, hpos]

end Represents

/-! ## The trie of a list of keys -/

/-- The keys are numbered in shortlex order, each once, and every number leads back to its key. -/
theorem ofKeys_numbers_keys (keys : List (List UInt8)) :
    (ofKeys keys).size = keys.toFinset.card ∧
      (∀ k id, (ofKeys keys).lookup k = some id ↔
        k ∈ keys ∧ id = (keys.toFinset.filter fun k' => Precedes k' k).card) ∧
      (∀ id < (ofKeys keys).size, ∃ k, (ofKeys keys).key id = .ok k ∧
        (ofKeys keys).lookup k = some id) ∧
      ∀ id, (ofKeys keys).size ≤ id →
        (ofKeys keys).key id = .error (.indexOutOfBounds id (ofKeys keys).size) := by
  have h := represents_ofKeys keys
  have hmem : ∀ k, k ∈ distinctPaths keys ↔ k ∈ keys := fun k => mem_distinctPaths
  have hrank : ∀ k, (keys.toFinset.filter fun k' => Precedes k' k).card =
      (distinctPaths keys).countP fun k' => Precedes k' k :=
    fun k => card_filter_toFinset h.nodup_keys hmem _
  -- size, identifiers, keys, and numbers beyond the size
  refine ⟨?_, fun k id => ?_, fun id hid => ?_, fun id hid => ?_⟩
  · have hcard := card_filter_toFinset h.nodup_keys hmem fun _ => True
    simpa [h.size_eq] using hcard.symm
  · rw [h.lookup_eq_some_iff, hrank]
    constructor
    · intro hid
      refine ⟨(hmem k).1 (List.mem_of_getElem? hid), ?_⟩
      rw [countP_of_getElem? Precedes.asymm h.sorted hid]
    · rintro ⟨hk, rfl⟩
      obtain ⟨id, hid⟩ := List.mem_iff_getElem?.1 ((hmem k).2 hk)
      rwa [countP_of_getElem? Precedes.asymm h.sorted hid]
  · rw [h.size_eq] at hid
    have hk := List.getElem?_eq_getElem hid
    exact ⟨_, h.key_eq_ok hk, h.lookup_eq_some_iff.2 hk⟩
  · rw [h.size_eq] at hid ⊢
    exact h.key_eq_error hid

example : (ofKeys [[2], [1, 1], [], [2]]).lookup [1, 1] = some 2 := by cbv

/-! ## The stored form -/

/-- A stored trie is read back. -/
theorem readsBack_write {t : ByteTrie} (ht : t.wellShaped) {out out' : Writer}
    (h : t.write out = .ok out') : ReadsBack out out' read t := by
  obtain ⟨o₁, h₁, h⟩ := Except.bind_eq_ok.1 h
  obtain ⟨o₂, h₂, h⟩ := Except.bind_eq_ok.1 h
  obtain ⟨o₃, h₃, h⟩ := Except.bind_eq_ok.1 h
  obtain rfl := Except.ok.inj h
  refine (readsBack_putCount h₁).bind ((readsBack_put o₁ (0 : Int32)).bind ?_)
  refine (BitVector.readsBack_write h₂).bind ((BitVector.readsBack_write h₃).bind ?_)
  have hlabels := readsBack_putAll o₃ t.labels.toList
  rw [Array.length_toList] at hlabels
  refine hlabels.bind ((readsBack_padTo _ sectionAlignment).bind ?_)
  have hself : (⟨t.tree, t.terminal, t.labels.toList.toArray⟩ : ByteTrie) = t := rfl
  rw [hself, if_pos ht]
  exact ReadsBack.pure _ t

theorem local_read : Reader.Local read := by
  apply Reader.local_readCount.bind
  intro count
  apply (Reader.local_read Int32).bind
  intro _
  apply BitVector.local_read.bind
  intro tree
  apply BitVector.local_read.bind
  intro terminal
  apply (Reader.local_readArray UInt8 count).bind
  intro labels
  apply (Reader.local_skipPadding sectionAlignment).bind
  intro _
  exact (Reader.local_pure _).ite (Reader.local_throw _)

end ByteTrie

end Paradigm
