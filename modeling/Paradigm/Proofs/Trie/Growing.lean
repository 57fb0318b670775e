import Mathlib
import Paradigm.Proofs.Trie.LevelOrder
import Paradigm.Trie.Growing

/-!
# Growing tries by levels

The nodes of the tree of a list of keys are the beginnings of keys, and those where a key ends are
marked.  The walk by levels meets them in order.

## Main definitions

* `GrowingTrie.at?`, `GrowingTrie.mark?`: the node at the end of a path, and its mark
* `GrowingTrie.Ordered`: the children of every node are in the order of their labels
* `GrowingTrie.locate`, `GrowingTrie.located`: the walk by levels with the paths to the nodes

## Main results

* `GrowingTrie.mark?_ofKeys`: the nodes of a tree and their marks
* `GrowingTrie.pairwise_locate`: the walk by levels meets the nodes in order
* `GrowingTrie.locate_eq_append`: and their children in turn
* `GrowingTrie.paths_located`: the nodes of the tree of a list of keys
-/

namespace Paradigm

namespace GrowingTrie

variable {n m : GrowingTrie} {x y : UInt8} {path key : List UInt8}

/-! ## Nodes by their paths -/

/-- The node at the end of a path. -/
def at? : List UInt8 → GrowingTrie → Option GrowingTrie
  | [], n => some n
  | x :: path, n => n.children.lookup x >>= at? path

/-- Whether a key ends at the end of a path, if there is a node. -/
def mark? (n : GrowingTrie) (path : List UInt8) : Option Bool := (n.at? path).map terminal

/-- The children of every node are in the order of their labels. -/
def Ordered (n : GrowingTrie) : Prop :=
  ∀ path m, n.at? path = some m → m.children.Pairwise fun c d => c.1 < d.1

theorem at?_cons : n.at? (x :: path) = n.children.lookup x >>= at? path := rfl

theorem at?_append (n : GrowingTrie) (path rest : List UInt8) :
    n.at? (path ++ rest) = n.at? path >>= at? rest := by
  induction path generalizing n with
  | nil => rfl
  | cons x path ih =>
    rw [List.cons_append, at?_cons, at?_cons, bind_assoc]
    exact congrArg (n.children.lookup x >>= ·) (funext fun m => ih m)

theorem Ordered.at? (h : n.Ordered) (hm : n.at? path = some m) : m.Ordered := by
  intro rest k hk
  refine h (path ++ rest) k ?_
  rw [at?_append, hm]
  exact hk

theorem Ordered.children (h : n.Ordered) : n.children.Pairwise fun c d => c.1 < d.1 := h [] n rfl

theorem Ordered.lookup (h : n.Ordered) (hm : n.children.lookup x = some m) : m.Ordered :=
  have hat : n.at? [x] = some m := by
    rw [at?_cons, hm]
    rfl
  h.at? hat

theorem at?_empty_cons : empty.at? (x :: path) = none := rfl

theorem ordered_empty : empty.Ordered := by
  intro path m hm
  cases path with
  | nil =>
    obtain rfl := Option.some.inj hm
    exact .nil
  | cons x path => cases hm

theorem ordered_getD {c : Option GrowingTrie} (h : ∀ m, c = some m → m.Ordered) :
    (c.getD empty).Ordered := by
  cases c with
  | none => exact ordered_empty
  | some m => exact h m rfl

/-! ## Children by their labels -/

section Children

variable {cs : List (UInt8 × GrowingTrie)}

theorem lookup_child_cons : ((y, m) :: cs).lookup x = if x = y then some m else cs.lookup x := by
  by_cases h : x = y
  · simp [h]
  · simp [List.lookup_cons, h, beq_eq_false_iff_ne.2 h]

theorem lookup_eq_none_of_lt (h : ∀ c ∈ cs, x < c.1) : cs.lookup x = none := by
  rw [List.lookup_eq_none_iff]
  rintro ⟨y, m⟩ hc
  have hlt := h _ hc
  simp only [bne_iff_ne, ne_eq]
  rintro rfl
  exact UInt8.lt_irrefl _ hlt

theorem mem_iff_lookup (h : cs.Pairwise fun c d => c.1 < d.1) :
    (x, m) ∈ cs ↔ cs.lookup x = some m := by
  have hnodup : (cs.map Prod.fst).Nodup :=
    Pairwise.nodup_of_irrefl UInt8.lt_irrefl (List.pairwise_map.2 h)
  rw [lookup_eq_some_iff_mem hnodup]

theorem lt_of_mem_updateChild {f : GrowingTrie → GrowingTrie} (hy : y < x)
    (hcs : ∀ c ∈ cs, y < c.1) : ∀ c ∈ updateChild x f cs, y < c.1 := by
  induction cs with
  | nil => simpa [updateChild] using hy
  | cons c cs ih =>
    obtain ⟨z, k⟩ := c
    have hz : y < z := hcs (z, k) List.mem_cons_self
    have hrest : ∀ c ∈ cs, y < c.1 := fun c hc => hcs c (List.mem_cons_of_mem _ hc)
    rw [updateChild]
    split
    · simpa using ⟨hy, hz, fun a b hab => hrest (a, b) hab⟩
    · split
      · simpa using ⟨hz, fun a b hab => ih hrest (a, b) hab⟩
      · simpa using ⟨hz, fun a b hab => hrest (a, b) hab⟩

theorem pairwise_updateChild (f : GrowingTrie → GrowingTrie)
    (h : cs.Pairwise fun c d => c.1 < d.1) :
    (updateChild x f cs).Pairwise fun c d => c.1 < d.1 := by
  induction cs with
  | nil => simp [updateChild]
  | cons c cs ih =>
    obtain ⟨y, k⟩ := c
    obtain ⟨hy, hcs⟩ := List.pairwise_cons.1 h
    rw [updateChild]
    split
    · rename_i hxy
      refine List.pairwise_cons.2 ⟨fun d hd => ?_, h⟩
      rcases List.mem_cons.1 hd with rfl | hd
      · exact hxy
      · exact UInt8.lt_trans hxy (hy d hd)
    · split
      · rename_i hyx
        exact List.pairwise_cons.2 ⟨lt_of_mem_updateChild hyx hy, ih hcs⟩
      · exact List.pairwise_cons.2 ⟨hy, hcs⟩

/-- Only the child with the label changes. -/
theorem lookup_updateChild (f : GrowingTrie → GrowingTrie)
    (h : cs.Pairwise fun c d => c.1 < d.1) :
    (updateChild x f cs).lookup y =
      if y = x then some (f ((cs.lookup x).getD empty)) else cs.lookup y := by
  induction cs with
  | nil => simp [updateChild, lookup_child_cons]
  | cons c cs ih =>
    obtain ⟨z, k⟩ := c
    obtain ⟨hz, hcs⟩ := List.pairwise_cons.1 h
    rw [updateChild]
    split
    -- there is no child with the label, and a new one comes first
    · rename_i hxz
      have hnone : ((z, k) :: cs).lookup x = none := by
        refine lookup_eq_none_of_lt fun d hd => ?_
        rcases List.mem_cons.1 hd with rfl | hd
        · exact hxz
        · exact UInt8.lt_trans hxz (hz d hd)
      rw [lookup_child_cons, hnone, Option.getD_none]
    · split
      -- the label comes later
      · rename_i hzx
        have hne : x ≠ z := by
          rintro rfl
          exact UInt8.lt_irrefl _ hzx
        simp only [lookup_child_cons, ih hcs, if_neg hne]
        by_cases hyx : y = x
        · simp [hyx, hne]
        · simp [hyx]
      -- the first child has the label
      · rename_i hxz hzx
        obtain rfl : x = z := UInt8.le_antisymm (UInt8.not_lt.1 hzx) (UInt8.not_lt.1 hxz)
        simp only [lookup_child_cons, if_true, Option.getD_some]
        by_cases hyx : y = x <;> simp [hyx]

end Children

/-! ## Putting in keys -/

theorem at?_insert_cons (h : n.Ordered) : (n.insert (x :: key)).at? (y :: path) =
    if y = x then (((n.children.lookup x).getD empty).insert key).at? path
    else n.at? (y :: path) := by
  rw [at?_cons, insert, children, lookup_updateChild _ h.children]
  by_cases hyx : y = x
  · simp [hyx]
  · rw [if_neg hyx, if_neg hyx, at?_cons]

theorem Ordered.insert (h : n.Ordered) (key : List UInt8) : (n.insert key).Ordered := by
  induction key generalizing n with
  | nil =>
    intro path m hm
    cases path with
    | nil =>
      obtain rfl := Option.some.inj hm
      exact h.children
    | cons y path => exact h (y :: path) m hm
  | cons x key ih =>
    intro path m hm
    cases path with
    | nil =>
      obtain rfl := Option.some.inj hm
      exact pairwise_updateChild _ h.children
    | cons y path =>
      rw [at?_insert_cons h] at hm
      split at hm
      · exact ih (ordered_getD fun m hm => h.lookup hm) path m hm
      · exact h _ m hm

/-- A key marks its own node, and makes unmarked nodes on its way. -/
theorem mark?_insert (h : n.Ordered) (key path : List UInt8) : (n.insert key).mark? path =
    if path = key then some true
    else if path <+: key then some ((n.mark? path).getD false)
    else n.mark? path := by
  induction key generalizing n path with
  | nil =>
    cases path with
    | nil => rfl
    | cons y path => simp [mark?, at?_cons, GrowingTrie.insert, GrowingTrie.children]
  | cons x key ih =>
    cases path with
    | nil => simp [mark?, GrowingTrie.at?, GrowingTrie.insert, terminal]
    | cons y path =>
      by_cases hyx : y = x
      · subst hyx
        -- the path goes on into the child of the key, which may be new
        have hchild : ((n.children.lookup y).getD empty).Ordered :=
          ordered_getD fun m hm => h.lookup hm
        have hstep : (n.insert (y :: key)).mark? (y :: path) =
            (((n.children.lookup y).getD empty).insert key).mark? path := by
          rw [mark?, at?_insert_cons h, if_pos rfl, mark?]
        rw [hstep, ih hchild]
        simp only [List.cons.injEq, true_and, List.cons_prefix_cons]
        cases hlookup : n.children.lookup y with
        | some m => simp [mark?, at?_cons, hlookup]
        | none =>
          cases path with
          | nil => simp [mark?, GrowingTrie.at?, hlookup, empty, terminal]
          | cons z path =>
            have hnone : n.mark? (y :: z :: path) = none := by
              rw [mark?, at?_cons, hlookup]
              rfl
            rw [Option.getD_none, show empty.mark? (z :: path) = none from rfl, hnone]
      -- the path goes another way than the key
      · rw [mark?, at?_insert_cons h, if_neg hyx]
        simp [hyx, mark?]

theorem ordered_ofKeys (keys : List (List UInt8)) : (ofKeys keys).Ordered := by
  induction keys using List.reverseRecOn with
  | nil => exact ordered_empty
  | append_singleton keys key ih =>
    rw [ofKeys, List.foldl_append]
    exact ih.insert key

/-- The nodes of the tree of a list of keys are the beginnings of keys, and the keys are marked. -/
theorem mark?_ofKeys (keys : List (List UInt8)) (path : List UInt8) :
    (ofKeys keys).mark? path =
      if path ∈ nodePaths keys then some (decide (path ∈ keys)) else none := by
  induction keys using List.reverseRecOn with
  | nil =>
    cases path with
    | nil => simp [mem_nodePaths, ofKeys, mark?, GrowingTrie.at?, empty, terminal]
    | cons x path => simp [mem_nodePaths, ofKeys, mark?, at?_empty_cons]
  | append_singleton keys key ih =>
    rw [ofKeys, List.foldl_append]
    show ((ofKeys keys).insert key).mark? path = _
    rw [mark?_insert (ordered_ofKeys keys), ih]
    by_cases hkey : path = key
    · subst hkey
      have hmem : path ∈ nodePaths (keys ++ [path]) :=
        mem_nodePaths.2 (.inr ⟨path, by simp, List.prefix_rfl⟩)
      simp [hmem]
    -- a new node is a beginning of the new key
    · have hmem : path ∈ nodePaths (keys ++ [key]) ↔ path ∈ nodePaths keys ∨ path <+: key := by
        simp only [mem_nodePaths, List.mem_append, List.mem_singleton]
        constructor
        · rintro (h | ⟨k, hk | rfl, hpre⟩)
          · exact .inl (.inl h)
          · exact .inl (.inr ⟨k, hk, hpre⟩)
          · exact .inr hpre
        · rintro ((h | ⟨k, hk, hpre⟩) | hpre)
          · exact .inl h
          · exact .inr ⟨k, .inl hk, hpre⟩
          · exact .inr ⟨key, .inr rfl, hpre⟩
      simp only [hmem, List.mem_append, List.mem_singleton, hkey, or_false]
      by_cases hin : path ∈ nodePaths keys
      · simp [hin]
      · have hnotin : path ∉ keys := fun hk =>
          hin (mem_nodePaths.2 (.inr ⟨path, hk, List.prefix_rfl⟩))
        simp [hin, hnotin]

/-! ## By levels -/

/-- The children of a node at the end of a path, with their paths. -/
def locatedChildren (c : List UInt8 × GrowingTrie) : List (List UInt8 × GrowingTrie) :=
  c.2.children.map fun d => (c.1 ++ [d.1], d.2)

theorem map_snd_locatedChildren (c : List UInt8 × GrowingTrie) :
    (locatedChildren c).map Prod.snd = c.2.children.map Prod.snd := by
  simp [locatedChildren, Function.comp_def]

theorem mem_locatedChildren {c d : List UInt8 × GrowingTrie} (h : c.2.Ordered) :
    d ∈ locatedChildren c ↔ ∃ x, d.1 = c.1 ++ [x] ∧ c.2.children.lookup x = some d.2 := by
  rw [locatedChildren, List.mem_map]
  constructor
  · rintro ⟨⟨x, m⟩, hm, rfl⟩
    exact ⟨x, rfl, (mem_iff_lookup h.children).1 hm⟩
  · rintro ⟨x, hx, hm⟩
    exact ⟨(x, d.2), (mem_iff_lookup h.children).2 hm, Prod.ext hx.symm rfl⟩

/-- The walk by levels, with the paths to the nodes. -/
def locate : List (List UInt8 × GrowingTrie) → List (List UInt8 × GrowingTrie)
  | [] => []
  | c :: waiting => c :: locate (waiting ++ locatedChildren c)
  termination_by waiting => sizeOf (waiting.map Prod.snd)
  decreasing_by
    obtain ⟨path, terminal, children⟩ := c
    rw [List.map_append, map_snd_locatedChildren, List.map_cons]
    exact sizeOf_append_lt terminal children _

theorem map_snd_locate (waiting : List (List UInt8 × GrowingTrie)) :
    (locate waiting).map Prod.snd = walk (waiting.map Prod.snd) := by
  fun_induction locate waiting with
  | case1 => simp [walk]
  | case2 c waiting ih =>
    rw [List.map_cons, ih, List.map_append, map_snd_locatedChildren, List.map_cons, walk]

/-- After the nodes that are waiting come the children of all nodes in turn. -/
theorem locate_eq_append (waiting : List (List UInt8 × GrowingTrie)) :
    locate waiting = waiting ++ (locate waiting).flatMap locatedChildren := by
  fun_induction locate waiting with
  | case1 => rfl
  | case2 c waiting ih =>
    rw [List.cons_append, List.flatMap_cons, ← List.append_assoc]
    exact congrArg (c :: ·) ih

/-- Exactly the nodes below those that are waiting are met. -/
theorem mem_locate {waiting : List (List UInt8 × GrowingTrie)} (h : ∀ c ∈ waiting, c.2.Ordered)
    {d : List UInt8 × GrowingTrie} :
    d ∈ locate waiting ↔ ∃ c ∈ waiting, ∃ rest, d.1 = c.1 ++ rest ∧ c.2.at? rest = some d.2 := by
  fun_induction locate waiting with
  | case1 => simp
  | case2 c waiting ih =>
    have hc : c.2.Ordered := h c List.mem_cons_self
    -- the nodes that wait next are in order too
    have hnext : ∀ e ∈ waiting ++ locatedChildren c, e.2.Ordered := by
      intro e he
      rcases List.mem_append.1 he with he | he
      · exact h e (List.mem_cons_of_mem c he)
      · obtain ⟨x, -, hx⟩ := (mem_locatedChildren hc).1 he
        exact hc.lookup hx
    rw [List.mem_cons, ih hnext]
    constructor
    · rintro (rfl | ⟨e, he, rest, hrest, hat⟩)
      · exact ⟨d, List.mem_cons_self, [], by simp, rfl⟩
      · rcases List.mem_append.1 he with he | he
        · exact ⟨e, List.mem_cons_of_mem c he, rest, hrest, hat⟩
        · obtain ⟨x, hx, hlookup⟩ := (mem_locatedChildren hc).1 he
          refine ⟨c, List.mem_cons_self, x :: rest, by simp [hrest, hx], ?_⟩
          rw [at?_cons, hlookup]
          exact hat
    · rintro ⟨e, he, rest, hrest, hat⟩
      rcases List.mem_cons.1 he with rfl | he
      · cases rest with
        | nil =>
          obtain hde : e.2 = d.2 := Option.some.inj hat
          exact .inl (Prod.ext (by simpa using hrest) hde.symm)
        | cons x rest =>
          rw [at?_cons, Option.bind_eq_bind, Option.bind_eq_some_iff] at hat
          obtain ⟨m, hm, hat⟩ := hat
          have hmem : (e.1 ++ [x], m) ∈ locatedChildren e := (mem_locatedChildren hc).2 ⟨x, rfl, hm⟩
          exact .inr ⟨_, List.mem_append_right waiting hmem, rest, by simp [hrest], hat⟩
      · exact .inr ⟨e, List.mem_append_left _ he, rest, hrest, hat⟩

/-- The nodes that are waiting are in order, and their parents come before all of them. -/
structure Waiting (waiting : List (List UInt8 × GrowingTrie)) : Prop where
  sorted : waiting.Pairwise fun c d => Precedes c.1 d.1
  parents : ∀ c ∈ waiting, ∀ d ∈ waiting, c.1 ≠ [] → Precedes c.1.dropLast d.1
  ordered : ∀ c ∈ waiting, c.2.Ordered

/-- The children of the first node can wait behind the others. -/
theorem Waiting.next {c : List UInt8 × GrowingTrie} {waiting : List (List UInt8 × GrowingTrie)}
    (h : Waiting (c :: waiting)) : Waiting (waiting ++ locatedChildren c) := by
  obtain ⟨hfirst, hsorted⟩ := List.pairwise_cons.1 h.sorted
  have hc : c.2.Ordered := h.ordered c List.mem_cons_self
  have hparent : ∀ d ∈ waiting, d.1 ≠ [] → Precedes d.1.dropLast c.1 := fun d hd =>
    h.parents d (List.mem_cons_of_mem c hd) c List.mem_cons_self
  have hlong : ∀ x, Precedes c.1 (c.1 ++ [x]) := fun x => .inl (by simp)
  refine ⟨List.pairwise_append.2 ⟨hsorted, ?_, ?_⟩, ?_, ?_⟩
  · rw [locatedChildren, List.pairwise_map]
    exact hc.children.imp fun hxy => precedes_append_singleton.2 (.inr ⟨rfl, hxy⟩)
  -- a waiting node comes before a new one, since its parent comes before the first node
  · intro d hd e he
    obtain ⟨x, hx, -⟩ := (mem_locatedChildren hc).1 he
    rw [hx]
    by_cases hnil : d.1 = []
    · exact .inl (by simp [hnil])
    · rw [← List.dropLast_append_getLast hnil, precedes_append_singleton]
      exact .inl (hparent d hd hnil)
  -- the parents of the others come before the first node, and the first node before all
  · intro d hd e he hnil
    rcases List.mem_append.1 hd with hd | hd
    · rcases List.mem_append.1 he with he | he
      · exact (hparent d hd hnil).trans (hfirst e he)
      · obtain ⟨x, hx, -⟩ := (mem_locatedChildren hc).1 he
        rw [hx]
        exact (hparent d hd hnil).trans (hlong x)
    · obtain ⟨x, hx, -⟩ := (mem_locatedChildren hc).1 hd
      rw [hx, List.dropLast_concat]
      rcases List.mem_append.1 he with he | he
      · exact hfirst e he
      · obtain ⟨y, hy, -⟩ := (mem_locatedChildren hc).1 he
        rw [hy]
        exact hlong y
  · intro d hd
    rcases List.mem_append.1 hd with hd | hd
    · exact h.ordered d (List.mem_cons_of_mem c hd)
    · obtain ⟨x, -, hx⟩ := (mem_locatedChildren hc).1 hd
      exact hc.lookup hx

/-- The walk by levels meets the nodes in order. -/
theorem pairwise_locate {waiting : List (List UInt8 × GrowingTrie)} (h : Waiting waiting) :
    (locate waiting).Pairwise fun c d => Precedes c.1 d.1 := by
  fun_induction locate waiting with
  | case1 => exact .nil
  | case2 c waiting ih =>
    refine List.pairwise_cons.2 ⟨fun d hd => ?_, ih h.next⟩
    -- a later node lies below one that waits, and so comes after the first
    obtain ⟨e, he, rest, hrest, -⟩ := (mem_locate h.next.ordered).1 hd
    have hce : Precedes c.1 e.1 := by
      rcases List.mem_append.1 he with he | he
      · exact (List.pairwise_cons.1 h.sorted).1 e he
      · obtain ⟨x, hx, -⟩ := (mem_locatedChildren (h.ordered c List.mem_cons_self)).1 he
        rw [hx]
        exact .inl (by simp)
    rw [hrest]
    exact hce.append_right rest

/-! ## The tree of a list of keys -/

/-- The nodes of the tree of a list of keys, level by level. -/
def located (keys : List (List UInt8)) : List (List UInt8 × GrowingTrie) :=
  locate [([], ofKeys keys)]

variable {keys : List (List UInt8)} {c : List UInt8 × GrowingTrie}

theorem map_snd_located (keys : List (List UInt8)) :
    (located keys).map Prod.snd = walk [ofKeys keys] :=
  map_snd_locate _

theorem mem_located : c ∈ located keys ↔ (ofKeys keys).at? c.1 = some c.2 := by
  rw [located, mem_locate (by simpa using ordered_ofKeys keys)]
  simp

theorem located_eq_cons (keys : List (List UInt8)) :
    located keys = ([], ofKeys keys) :: (located keys).flatMap locatedChildren :=
  locate_eq_append _

/-- The walk by levels meets the nodes of the paths to keys in order. -/
theorem paths_located (keys : List (List UInt8)) :
    (located keys).map Prod.fst = nodePaths keys := by
  refine eq_of_pairwise_precedes ?_ (LevelOrder.nodePaths keys).sorted fun p => ?_
  · rw [List.pairwise_map]
    refine pairwise_locate ⟨List.pairwise_singleton _ _, ?_, ?_⟩
    · simp
    · simpa using ordered_ofKeys keys
  -- both have the paths that lead to a node of the tree
  · have hmark := mark?_ofKeys keys p
    rw [mark?] at hmark
    rw [List.mem_map]
    constructor
    · rintro ⟨c, hc, rfl⟩
      rw [mem_located.1 hc] at hmark
      split at hmark
      · assumption
      · cases hmark
    · intro hp
      rw [if_pos hp, Option.map_eq_some_iff] at hmark
      obtain ⟨m, hm, -⟩ := hmark
      exact ⟨(p, m), mem_located.2 hm, rfl⟩

theorem terminal_of_mem_located (hc : c ∈ located keys) : c.2.terminal = decide (c.1 ∈ keys) := by
  have hmark := mark?_ofKeys keys c.1
  have hin : c.1 ∈ nodePaths keys := by
    rw [← paths_located]
    exact List.mem_map_of_mem hc
  rw [mark?, mem_located.1 hc, if_pos hin] at hmark
  exact Option.some.inj hmark

/-- The children that are met later are those of the node. -/
theorem map_fst_locatedChildren (hc : c ∈ located keys) :
    (locatedChildren c).map Prod.fst = childrenOf (nodePaths keys) c.1 := by
  have horder := LevelOrder.nodePaths keys
  have hordered : c.2.Ordered := (ordered_ofKeys keys).at? (mem_located.1 hc)
  refine eq_of_pairwise_precedes ?_ (horder.sorted.tail.filter _) fun q => ?_
  · rw [locatedChildren, List.map_map, List.pairwise_map]
    exact hordered.children.imp fun hxy => precedes_append_singleton.2 (.inr ⟨rfl, hxy⟩)
  · rw [horder.mem_childrenOf, List.mem_map, ← paths_located, List.mem_map]
    constructor
    · rintro ⟨d, hd, rfl⟩
      obtain ⟨x, hx, hlookup⟩ := (mem_locatedChildren hordered).1 hd
      refine ⟨⟨d, ?_, rfl⟩, x, hx⟩
      rw [mem_located, hx, at?_append, mem_located.1 hc]
      show (c.2.children.lookup x >>= fun m => some m) = _
      rw [hlookup]
      rfl
    · rintro ⟨⟨d, hd, rfl⟩, x, hx⟩
      refine ⟨d, (mem_locatedChildren hordered).2 ⟨x, hx, ?_⟩, rfl⟩
      rw [mem_located, hx, at?_append, mem_located.1 hc] at hd
      simpa [at?_cons, GrowingTrie.at?] using hd

end GrowingTrie

end Paradigm
