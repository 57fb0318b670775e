import Mathlib
import Paradigm.Proofs.ByteOrder
import Paradigm.Proofs.Trie.ByteTrie

/-!
# The entries below a prefix

A walk from a node downwards keeps the nodes that it has still to meet on a stack, and one key from
which the paths to all of them are cut.  Every step takes the next path off the stack and puts the
children of its node in its place, so that the walk meets every node at and below its first one
once.  The paths come in byte order, in which a path stands before all that it begins.

## Main definitions

* `pathsBelow`: the nodes that a walk will meet
* `ByteTrie.Heads`: the paths that a walk has on its stack
* `ByteTrie.after`: a walk after a number of steps

## Main results

* `ByteTrie.Heads.meet_cases`: one step of a walk
* `ByteTrie.Heads.mem_entriesOf`, `ByteTrie.Heads.pairwise_entriesOf`,
  `ByteTrie.Heads.stack_after`: a whole walk
* `ByteTrie.Represents.mem_withPrefix`, `ByteTrie.Represents.pairwise_withPrefix`: the entries that
  begin with given bytes
* `ByteTrie.ofKeys_withPrefix`: the entries of the trie of a list of keys
-/

namespace Paradigm

/-! ## Nodes below paths -/

/-- The nodes that begin with one of the given paths. -/
def pathsBelow (nodes paths : List (List UInt8)) : List (List UInt8) :=
  paths.flatMap fun p => nodes.filter (p <+: ·)

theorem mem_pathsBelow {nodes paths : List (List UInt8)} {q : List UInt8} :
    q ∈ pathsBelow nodes paths ↔ q ∈ nodes ∧ ∃ p ∈ paths, p <+: q := by
  simp only [pathsBelow, List.mem_flatMap, List.mem_filter, decide_eq_true_eq]
  constructor
  · rintro ⟨p, hp, hq, hpre⟩
    exact ⟨hq, p, hp, hpre⟩
  · rintro ⟨hq, p, hp, hpre⟩
    exact ⟨p, hp, hq, hpre⟩

namespace LevelOrder

variable {nodes : List (List UInt8)} {p : List UInt8}

theorem pairwise_childrenOf (h : LevelOrder nodes) (p : List UInt8) :
    (childrenOf nodes p).Pairwise Before := by
  refine List.Pairwise.imp_of_mem ?_ (h.sorted.tail.filter _)
  intro q r hq hr hqr
  obtain ⟨-, x, rfl⟩ := h.mem_childrenOf.1 hq
  obtain ⟨-, y, rfl⟩ := h.mem_childrenOf.1 hr
  have hxy := (precedes_append_singleton.1 hqr).resolve_left (Precedes.irrefl p)
  exact before_of_label_lt p hxy.2

/-- A node is below itself, and all others below it are below one of its children. -/
theorem filter_prefix_perm (h : LevelOrder nodes) (hp : p ∈ nodes) :
    (nodes.filter (p <+: ·)).Perm (p :: pathsBelow nodes (childrenOf nodes p)) := by
  have hlength : ∀ q ∈ pathsBelow nodes (childrenOf nodes p), p <+: q ∧ p ≠ q := by
    intro q hq
    obtain ⟨-, c, hc, hpre⟩ := mem_pathsBelow.1 hq
    obtain ⟨-, x, rfl⟩ := h.mem_childrenOf.1 hc
    refine ⟨(List.prefix_append p [x]).trans hpre, ?_⟩
    rintro rfl
    have := hpre.length_le
    simp at this
  have hnodup : (pathsBelow nodes (childrenOf nodes p)).Nodup := by
    refine List.nodup_flatMap.2 ⟨fun c _ => h.nodup.filter _, ?_⟩
    -- what is below one child is not below another one
    refine (h.pairwise_childrenOf p).imp ?_
    intro c d hcd q hc hd
    have hc := of_decide_eq_true (List.mem_filter.1 hc).2
    have hd := of_decide_eq_true (List.mem_filter.1 hd).2
    exact List.lt_irrefl q (hcd q q hc hd)
  refine (List.perm_ext_iff_of_nodup (h.nodup.filter _) ?_).2 ?_
  · exact List.nodup_cons.2 ⟨fun hmem => (hlength p hmem).2 rfl, hnodup⟩
  intro q
  rw [List.mem_filter, decide_eq_true_iff, List.mem_cons]
  constructor
  · rintro ⟨hq, rest, rfl⟩
    cases rest with
    | nil => exact .inl (List.append_nil p)
    | cons x rest =>
      have hpre : p ++ [x] <+: p ++ x :: rest := ⟨rest, by simp⟩
      have hchild : p ++ [x] ∈ childrenOf nodes p :=
        h.mem_childrenOf.2 ⟨h.mem_of_prefix hq hpre, x, rfl⟩
      exact .inr (mem_pathsBelow.2 ⟨hq, _, hchild, hpre⟩)
  · rintro (rfl | hq)
    · exact ⟨hp, List.prefix_rfl⟩
    · exact ⟨(mem_pathsBelow.1 hq).1, (hlength q hq).1⟩

theorem pathsBelow_cons_perm (h : LevelOrder nodes) (hp : p ∈ nodes)
    (paths : List (List UInt8)) : (pathsBelow nodes (p :: paths)).Perm
      (p :: pathsBelow nodes (childrenOf nodes p ++ paths)) := by
  rw [pathsBelow, List.flatMap_cons, pathsBelow, List.flatMap_append]
  exact (h.filter_prefix_perm hp).append_right _

theorem length_pathsBelow_cons (h : LevelOrder nodes) (hp : p ∈ nodes)
    (paths : List (List UInt8)) : (pathsBelow nodes (p :: paths)).length =
      (pathsBelow nodes (childrenOf nodes p ++ paths)).length + 1 := by
  rw [(h.pathsBelow_cons_perm hp paths).length_eq, List.length_cons]

end LevelOrder

/-! ## One step of a walk -/

namespace ByteTrie

/-- A frame stands for a path to a node, which is cut from the key. -/
structure Frame.PointsTo (f : Frame) (t : ByteTrie) (nodes : List (List UInt8))
    (key p : List UInt8) : Prop where
  node : nodes[f.node]? = some p
  path : f.path t key = p
  length_le : f.parentLength ≤ key.length

/-- The paths that a walk has on its stack, the next one first.  All of them are cut from one key,
and the later ones branch off no deeper than the earlier ones. -/
structure Heads (t : ByteTrie) (nodes : List (List UInt8)) (w : Walk)
    (paths : List (List UInt8)) : Prop where
  frames : List.Forall₂ (Frame.PointsTo · t nodes w.key) w.stack paths
  descending : w.stack.Pairwise fun f g => g.parentLength ≤ f.parentLength
  ordered : paths.Pairwise Before

namespace Frame

variable {t : ByteTrie} {nodes keys : List (List UInt8)} {key p q : List UInt8} {f g : Frame}

/-- What the key holds before a frame branches off stays when the key goes on to another path that
branches off deeper. -/
theorem take_path (hf : f.parentLength ≤ key.length) (hgf : g.parentLength ≤ f.parentLength) :
    (f.path t key).take g.parentLength = key.take g.parentLength := by
  have hlength : (key.take f.parentLength).length = f.parentLength := List.length_take_of_le hf
  have hcut : (key.take f.parentLength).take g.parentLength = key.take g.parentLength := by
    rw [List.take_take, Nat.min_eq_left hgf]
  unfold path
  dsimp only
  split
  · rw [List.take_append_of_le_length (by omega), hcut]
  · exact hcut

/-- The key goes on to the path of a frame, and the frames that branch off no deeper still stand for
their paths. -/
theorem PointsTo.keep (hg : g.PointsTo t nodes key q) (hf : f.PointsTo t nodes key p)
    (hgf : g.parentLength ≤ f.parentLength) : g.PointsTo t nodes p q := by
  have htake : p.take g.parentLength = key.take g.parentLength := by
    rw [← hf.path, take_path hf.length_le hgf]
  refine ⟨hg.node, ?_, ?_⟩
  · rw [Frame.path, htake]
    exact hg.path
  · have hlength := congrArg List.length htake
    rw [List.length_take_of_le hg.length_le, List.length_take] at hlength
    omega

theorem forall₂_keep {stack : List Frame} {paths : List (List UInt8)}
    (hstack : List.Forall₂ (PointsTo · t nodes key) stack paths) (hf : f.PointsTo t nodes key p)
    (hdeep : ∀ g ∈ stack, g.parentLength ≤ f.parentLength) :
    List.Forall₂ (PointsTo · t nodes p) stack paths := by
  induction hstack with
  | nil => exact .nil
  | @cons g q stack paths hg _ ih =>
    exact .cons (hg.keep hf (hdeep g List.mem_cons_self))
      (ih fun g' hg' => hdeep g' (List.mem_cons_of_mem g hg'))

/-- The entry of a node whose path is a key. -/
theorem PointsTo.mem_entry (h : t.Represents nodes keys) (hf : f.PointsTo t nodes key p)
    {k : List UInt8} {id : Nat} :
    (k, id) ∈ ((t.keyAt? f.node).map (p, ·)).toList ↔ k = p ∧ keys[id]? = some k := by
  rw [Option.mem_toList, Option.map_eq_some_iff]
  constructor
  · rintro ⟨id', hid, heq⟩
    obtain ⟨rfl, rfl⟩ := Prod.mk.inj heq
    exact ⟨rfl, (h.keyAt?_eq_some_iff hf.node).1 hid⟩
  · rintro ⟨rfl, hid⟩
    exact ⟨id, (h.keyAt?_eq_some_iff hf.node).2 hid, rfl⟩

end Frame

namespace Represents

variable {t : ByteTrie} {nodes keys : List (List UInt8)} {v : Nat} {p : List UInt8}

/-- The frames of the children of a node. -/
theorem pointsTo_children (h : t.Represents nodes keys) (hv : nodes[v]? = some p) :
    List.Forall₂ (Frame.PointsTo · t nodes p) ((t.children v).map fun c => ⟨c, p.length, true⟩)
      (childrenOf nodes p) := by
  rw [List.forall₂_map_left_iff, h.children_eq hv, List.forall₂_iff_get]
  refine ⟨List.length_range', ?_⟩
  intro i _ hi
  rw [List.get_eq_getElem, List.get_eq_getElem, List.getElem_range', Nat.one_mul]
  have hchild : nodes[firstChild nodes v + i]? = some (childrenOf nodes p)[i] :=
    (h.order.getElem?_child hv hi).trans (List.getElem?_eq_getElem hi)
  obtain ⟨-, x, hx⟩ := h.order.mem_childrenOf.1 (List.getElem_mem hi)
  rw [hx] at hchild ⊢
  refine ⟨hchild, ?_, le_rfl⟩
  rw [Frame.path, List.take_length, h.label_eq hchild]
  rfl

end Represents

namespace Heads

variable {t : ByteTrie} {nodes keys paths : List (List UInt8)} {w : Walk} {steps : Nat}

/-- **One step of a walk** takes the next path off the stack, gives its entry, and puts the children
of its node in its place. -/
theorem meet_cases (h : t.Represents nodes keys) (hw : t.Heads nodes w paths) :
    (t.meet w = none ∧ w.stack = [] ∧ paths = []) ∨
      ∃ p rest entry w', t.meet w = some (entry, w') ∧ paths = p :: rest ∧ p ∈ nodes ∧
        (∀ k id, (k, id) ∈ entry.toList ↔ k = p ∧ keys[id]? = some k) ∧
        t.Heads nodes w' (childrenOf nodes p ++ rest) := by
  obtain ⟨stack, key⟩ := w
  have hframes : List.Forall₂ (Frame.PointsTo · t nodes key) stack paths := hw.frames
  cases hframes with
  | nil => exact .inl ⟨rfl, rfl, rfl⟩
  | @cons f p stack rest hf hframes =>
    obtain ⟨hdeep, hdescending⟩ := List.pairwise_cons.1 hw.descending
    obtain ⟨hbefore, hordered⟩ := List.pairwise_cons.1 hw.ordered
    obtain rfl := hf.path
    -- the children are cut from the new key, and so are the frames that stay
    have hkept := Frame.forall₂_keep hframes hf hdeep
    refine .inr ⟨_, _, _, _, rfl, rfl, List.mem_of_getElem? hf.node, ?_, ?_, ?_, ?_⟩
    · intro k id
      exact hf.mem_entry h
    · exact List.rel_append (h.pointsTo_children hf.node) hkept
    · refine List.pairwise_append.2 ⟨?_, hdescending, ?_⟩
      · rw [List.pairwise_map]
        exact List.pairwise_of_forall fun _ _ => le_rfl
      · intro g hg g' hg'
        obtain ⟨c, -, rfl⟩ := List.mem_map.1 hg
        obtain ⟨i, rfl⟩ := List.mem_iff_get.1 hg'
        exact (hkept.get i.2 (hkept.length_eq ▸ i.2)).length_le
    · refine List.pairwise_append.2 ⟨h.order.pairwise_childrenOf _, hordered, ?_⟩
      intro q hq r hr
      obtain ⟨-, x, rfl⟩ := h.order.mem_childrenOf.1 hq
      exact (hbefore r hr).mono (List.prefix_append _ _) List.prefix_rfl

end Heads

/-! ## A whole walk -/

/-- A walk after a number of steps, or at its end. -/
def after (t : ByteTrie) : Nat → Walk → Walk
  | 0, w => w
  | steps + 1, w =>
    match t.meet w with
    | none => w
    | some (_, w) => t.after steps w

/-- What a walk gives in more steps comes behind what it has given before. -/
theorem entriesOf_add (t : ByteTrie) (steps more : Nat) (w : Walk) :
    t.entriesOf (steps + more) w = t.entriesOf steps w ++ t.entriesOf more (t.after steps w) := by
  induction steps generalizing w with
  | zero => rw [Nat.zero_add, entriesOf, after, List.nil_append]
  | succ steps ih =>
    rw [Nat.succ_add, entriesOf, entriesOf, after]
    cases hmeet : t.meet w with
    | none =>
      cases more with
      | zero => rfl
      | succ more => simp only [entriesOf, hmeet, List.nil_append]
    | some next => simp only [ih, List.append_assoc]

theorem entriesOf_of_stack_eq_nil {t : ByteTrie} {w : Walk} (h : w.stack = []) (steps : Nat) :
    t.entriesOf steps w = [] := by
  cases steps with
  | zero => rfl
  | succ steps => rw [entriesOf, meet, h]

namespace Heads

variable {t : ByteTrie} {nodes keys paths : List (List UInt8)} {w : Walk} {steps : Nat}
  {k : List UInt8} {id : Nat}

/-- A walk ends after as many steps as there are nodes below the paths on its stack. -/
theorem stack_after (h : t.Represents nodes keys) (hw : t.Heads nodes w paths)
    (hsteps : (pathsBelow nodes paths).length ≤ steps) : (t.after steps w).stack = [] := by
  induction steps generalizing w paths with
  | zero =>
    obtain ⟨-, hstack, -⟩ | ⟨p, rest, entry, w', -, rfl, hp, -, -⟩ := hw.meet_cases h
    · exact hstack
    · rw [h.order.length_pathsBelow_cons hp] at hsteps
      omega
  | succ steps ih =>
    rw [after]
    obtain ⟨hmeet, hstack, -⟩ | ⟨p, rest, entry, w', hmeet, rfl, hp, -, hw'⟩ := hw.meet_cases h
    · rw [hmeet]
      exact hstack
    · rw [h.order.length_pathsBelow_cons hp] at hsteps
      rw [hmeet]
      exact ih hw' (Nat.le_of_succ_le_succ hsteps)

/-- A walk gives entries of nodes below the paths on its stack only. -/
theorem of_mem_entriesOf (h : t.Represents nodes keys) (hw : t.Heads nodes w paths)
    (hk : (k, id) ∈ t.entriesOf steps w) : k ∈ pathsBelow nodes paths ∧ keys[id]? = some k := by
  induction steps generalizing w paths with
  | zero => cases hk
  | succ steps ih =>
    rw [entriesOf] at hk
    obtain ⟨hmeet, -, -⟩ | ⟨p, rest, entry, w', hmeet, rfl, hp, hentry, hw'⟩ := hw.meet_cases h
    · rw [hmeet] at hk
      cases hk
    · simp only [hmeet, List.mem_append, hentry] at hk
      rw [(h.order.pathsBelow_cons_perm hp rest).mem_iff, List.mem_cons]
      rcases hk with ⟨rfl, hid⟩ | hk
      · exact ⟨.inl rfl, hid⟩
      · exact ⟨.inr (ih hw' hk).1, (ih hw' hk).2⟩

/-- A walk that has ended gave the entries of all nodes below the paths on its stack. -/
theorem mem_entriesOf (h : t.Represents nodes keys) (hw : t.Heads nodes w paths)
    (hsteps : (pathsBelow nodes paths).length ≤ steps) :
    (k, id) ∈ t.entriesOf steps w ↔ k ∈ pathsBelow nodes paths ∧ keys[id]? = some k := by
  refine ⟨hw.of_mem_entriesOf h, ?_⟩
  rintro ⟨hk, hid⟩
  induction steps generalizing w paths with
  | zero =>
    rw [List.length_eq_zero_iff.1 (Nat.le_zero.1 hsteps)] at hk
    cases hk
  | succ steps ih =>
    rw [entriesOf]
    obtain ⟨-, -, rfl⟩ | ⟨p, rest, entry, w', hmeet, rfl, hp, hentry, hw'⟩ := hw.meet_cases h
    · cases hk
    · rw [h.order.length_pathsBelow_cons hp] at hsteps
      rw [(h.order.pathsBelow_cons_perm hp rest).mem_iff, List.mem_cons] at hk
      simp only [hmeet, List.mem_append, hentry]
      rcases hk with rfl | hk
      · exact .inl ⟨rfl, hid⟩
      · exact .inr (ih hw' (Nat.le_of_succ_le_succ hsteps) hk)

/-- The entries of a walk come in the order of their keys. -/
theorem pairwise_entriesOf (h : t.Represents nodes keys) (hw : t.Heads nodes w paths)
    (steps : Nat) : (t.entriesOf steps w).Pairwise (·.1 < ·.1) := by
  induction steps generalizing w paths with
  | zero => exact .nil
  | succ steps ih =>
    rw [entriesOf]
    obtain ⟨hmeet, -, -⟩ | ⟨p, rest, entry, w', hmeet, rfl, hp, hentry, hw'⟩ := hw.meet_cases h
    · rw [hmeet]
      exact .nil
    rw [hmeet]
    refine List.pairwise_append.2 ⟨?_, ih hw', ?_⟩
    · cases entry with
      | none => exact .nil
      | some e => exact List.pairwise_singleton _ _
    rintro ⟨k, id⟩ hk ⟨l, id'⟩ hl
    obtain ⟨rfl, -⟩ := (hentry k id).1 hk
    obtain ⟨-, q, hq, hpre⟩ := mem_pathsBelow.1 (hw'.of_mem_entriesOf h hl).1
    rcases List.mem_append.1 hq with hq | hq
    -- a key below a child goes on behind the path of the node
    · obtain ⟨-, x, rfl⟩ := h.order.mem_childrenOf.1 hq
      refine lt_of_prefix_of_ne ((List.prefix_append k [x]).trans hpre) ?_
      rintro rfl
      simpa using hpre.length_le
    · exact (List.pairwise_cons.1 hw.ordered).1 q hq k l List.prefix_rfl hpre

end Heads

/-! ## Entries that begin with given bytes -/

namespace Represents

variable {t : ByteTrie} {nodes keys : List (List UInt8)} {start k : List UInt8} {id steps : Nat}

/-- A walk begins with the path that it is given, if this is that of a node. -/
theorem heads_walkFrom (h : t.Represents nodes keys) (start : List UInt8) :
    t.Heads nodes (t.walkFrom start) ([start].filter (· ∈ nodes)) := by
  rw [walkFrom]
  cases hnode : t.node? start with
  | none =>
    have hnot : start ∉ nodes := by
      intro hstart
      obtain ⟨v, hv⟩ := List.mem_iff_getElem?.1 hstart
      rw [h.node?_eq_some_iff.2 hv] at hnode
      cases hnode
    rw [List.filter_cons_of_neg (by simpa using hnot)]
    exact ⟨.nil, .nil, .nil⟩
  | some v =>
    have hv := h.node?_eq_some_iff.1 hnode
    rw [List.filter_cons_of_pos (by simpa using List.mem_of_getElem? hv)]
    refine ⟨.cons ⟨hv, ?_, le_rfl⟩ .nil, List.pairwise_singleton _ _, List.pairwise_singleton _ _⟩
    rw [Frame.path]
    exact List.take_length

/-- There are no more nodes below a path than there are nodes. -/
theorem length_pathsBelow_le (h : t.Represents nodes keys) (start : List UInt8) :
    (pathsBelow nodes ([start].filter (· ∈ nodes))).length ≤ t.nodeCount := by
  rw [h.nodeCount_eq, pathsBelow]
  by_cases hstart : start ∈ nodes
  · rw [List.filter_cons_of_pos (by simpa using hstart), List.filter_nil, List.flatMap_singleton]
    exact List.length_filter_le _ _
  · rw [List.filter_cons_of_neg (by simpa using hstart)]
    exact Nat.zero_le _

/-- **The entries of a trie that begin with given bytes** are those of its keys that do. -/
theorem mem_entriesOf_walkFrom (h : t.Represents nodes keys) (hsteps : t.nodeCount ≤ steps) :
    (k, id) ∈ t.entriesOf steps (t.walkFrom start) ↔ start <+: k ∧ keys[id]? = some k := by
  rw [(h.heads_walkFrom start).mem_entriesOf h ((h.length_pathsBelow_le start).trans hsteps),
    mem_pathsBelow]
  constructor
  · rintro ⟨⟨-, p, hp, hpre⟩, hid⟩
    obtain rfl := List.mem_singleton.1 (List.mem_filter.1 hp).1
    exact ⟨hpre, hid⟩
  · rintro ⟨hpre, hid⟩
    have hk := h.key_mem k (List.mem_of_getElem? hid)
    have hstart : start ∈ nodes := h.order.mem_of_prefix hk hpre
    exact ⟨⟨hk, start, List.mem_filter.2 ⟨List.mem_singleton_self _, by simpa⟩, hpre⟩, hid⟩

theorem mem_withPrefix (h : t.Represents nodes keys) :
    (k, id) ∈ t.withPrefix start ↔ start <+: k ∧ keys[id]? = some k :=
  h.mem_entriesOf_walkFrom le_rfl

/-- The entries come in byte order. -/
theorem pairwise_withPrefix (h : t.Represents nodes keys) (start : List UInt8) :
    (t.withPrefix start).Pairwise (·.1 < ·.1) :=
  (h.heads_walkFrom start).pairwise_entriesOf h _

/-- A walk through a trie has ended when it has met as many nodes as there are, and gives nothing
more. -/
theorem stack_after_walkFrom (h : t.Represents nodes keys) (start : List UInt8)
    (hsteps : t.nodeCount ≤ steps) : (t.after steps (t.walkFrom start)).stack = [] :=
  (h.heads_walkFrom start).stack_after h ((h.length_pathsBelow_le start).trans hsteps)

theorem entriesOf_walkFrom_eq (h : t.Represents nodes keys) (start : List UInt8)
    (hsteps : t.nodeCount ≤ steps) :
    t.entriesOf steps (t.walkFrom start) = t.withPrefix start := by
  obtain ⟨more, rfl⟩ := Nat.exists_eq_add_of_le hsteps
  rw [entriesOf_add, entriesOf_of_stack_eq_nil (h.stack_after_walkFrom start le_rfl),
    List.append_nil]
  rfl

end Represents

/-- **The entries of the trie of a list of keys that begin with given bytes**: the walk through the
trie ends, however many more steps it may take, and gives each of the keys that begin with the bytes
once, with its identifier and in byte order.  There are none if the bytes are not a path of the
trie, and those that begin with no bytes are all. -/
theorem ofKeys_withPrefix (keys : List (List UInt8)) (start : List UInt8) :
    (∀ steps, (ofKeys keys).nodeCount ≤ steps →
      ((ofKeys keys).after steps ((ofKeys keys).walkFrom start)).stack = [] ∧
        (ofKeys keys).entriesOf steps ((ofKeys keys).walkFrom start) =
          (ofKeys keys).withPrefix start) ∧
      (∀ k id, (k, id) ∈ (ofKeys keys).withPrefix start ↔
        start <+: k ∧ (ofKeys keys).lookup k = some id) ∧
      (∀ k, k ∈ keys ↔ ∃ id, (ofKeys keys).lookup k = some id) ∧
      ((ofKeys keys).withPrefix start).Pairwise (·.1 < ·.1) ∧
      ((ofKeys keys).node? start = none → (ofKeys keys).withPrefix start = []) ∧
      ∀ k, k ∈ (ofKeys keys).entries.map Prod.fst ↔ k ∈ keys := by
  have h := represents_ofKeys keys
  have hmem : ∀ start k id, (k, id) ∈ (ofKeys keys).withPrefix start ↔
      start <+: k ∧ (ofKeys keys).lookup k = some id := by
    intro start k id
    rw [h.mem_withPrefix, h.lookup_eq_some_iff]
  have hlookup : ∀ k, k ∈ keys ↔ ∃ id, (ofKeys keys).lookup k = some id := by
    intro k
    rw [← mem_distinctPaths, List.mem_iff_getElem?]
    simp only [h.lookup_eq_some_iff]
  refine ⟨?_, hmem start, hlookup, h.pairwise_withPrefix start, ?_, ?_⟩
  · intro steps hsteps
    exact ⟨h.stack_after_walkFrom start hsteps, h.entriesOf_walkFrom_eq start hsteps⟩
  · intro hnode
    have hwalk : ((ofKeys keys).walkFrom start).stack = [] := by rw [walkFrom, hnode]
    exact entriesOf_of_stack_eq_nil hwalk _
  · intro k
    rw [List.mem_map, hlookup]
    constructor
    · rintro ⟨⟨k, id⟩, he, rfl⟩
      exact ⟨id, ((hmem [] k id).1 he).2⟩
    · rintro ⟨id, hid⟩
      exact ⟨(k, id), (hmem [] k id).2 ⟨List.nil_prefix, hid⟩, rfl⟩

theorem ofKeys_withPrefix_ab :
    (ofKeys [[98], [97, 98], [97]]).nodeCount ≤ 4 ∧
      ((ofKeys [[98], [97, 98], [97]]).after 4
        ((ofKeys [[98], [97, 98], [97]]).walkFrom [97])).stack = [] ∧
      (ofKeys [[98], [97, 98], [97]]).entriesOf 4
        ((ofKeys [[98], [97, 98], [97]]).walkFrom [97]) = [([97], 0), ([97, 98], 2)] ∧
      ([97, 98], 2) ∈ (ofKeys [[98], [97, 98], [97]]).withPrefix [97] ∧
      ((ofKeys [[98], [97, 98], [97]]).withPrefix [97]).Pairwise (·.1 < ·.1) ∧
      (ofKeys [[98], [97, 98], [97]]).node? [99] = none ∧
      (ofKeys [[98], [97, 98], [97]]).withPrefix [99] = [] := by
  have hcount : (ofKeys [[98], [97, 98], [97]]).nodeCount ≤ 4 := by cbv
  have hentries : (ofKeys [[98], [97, 98], [97]]).withPrefix [97] =
      [([97], 0), ([97, 98], 2)] := by cbv
  have hlookup : (ofKeys [[98], [97, 98], [97]]).lookup [97, 98] = some 2 := by cbv
  have hnode : (ofKeys [[98], [97, 98], [97]]).node? [99] = none := by cbv
  obtain ⟨hwalk, hmem, -, hsorted, -, -⟩ := ofKeys_withPrefix [[98], [97, 98], [97]] [97]
  obtain ⟨-, -, -, -, hempty, -⟩ := ofKeys_withPrefix [[98], [97, 98], [97]] [99]
  obtain ⟨hstack, hsame⟩ := hwalk 4 hcount
  exact ⟨hcount, hstack, hsame.trans hentries, (hmem [97, 98] 2).2 ⟨by decide, hlookup⟩, hsorted,
    hnode, hempty hnode⟩

example : (ofKeys [[98], [97, 98], [97]]).entries = [([97], 0), ([97, 98], 2), ([98], 1)] := by cbv

end ByteTrie

end Paradigm
