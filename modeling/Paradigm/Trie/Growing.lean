/-!
# Tries that grow

While keys are put in, a trie is a tree of nodes, each with its children in the order of their
labels.  A walk by levels meets the nodes in the order in which they are stored afterwards.

## Main definitions

* `GrowingTrie.insert`, `GrowingTrie.ofKeys`: the tree of a list of keys
* `GrowingTrie.walk`: the nodes of trees, level by level
-/

namespace Paradigm

/-- A node: whether a key ends there, and its children by their labels. -/
inductive GrowingTrie where
  | node (terminal : Bool) (children : List (UInt8 × GrowingTrie))

namespace GrowingTrie

/-- Whether a key ends at a node. -/
def terminal : GrowingTrie → Bool
  | node terminal _ => terminal

/-- The children of a node by their labels. -/
def children : GrowingTrie → List (UInt8 × GrowingTrie)
  | node _ children => children

/-- A node without keys. -/
def empty : GrowingTrie := node false []

/-- Changes the child with a label, after a new one is put in its place if there is none. -/
def updateChild (x : UInt8) (f : GrowingTrie → GrowingTrie) :
    List (UInt8 × GrowingTrie) → List (UInt8 × GrowingTrie)
  | [] => [(x, f empty)]
  | (y, n) :: rest =>
    if x < y then (x, f empty) :: (y, n) :: rest
    else if y < x then (y, n) :: updateChild x f rest
    else (y, f n) :: rest

/-- Puts in a key. -/
def insert : List UInt8 → GrowingTrie → GrowingTrie
  | [], n => node true n.children
  | x :: key, n => node n.terminal (updateChild x (insert key) n.children)

/-- The tree of a list of keys. -/
def ofKeys (keys : List (List UInt8)) : GrowingTrie :=
  keys.foldl (fun root key => root.insert key) empty

/-! ## By levels -/

theorem sizeOf_append_lt (terminal : Bool) (children : List (UInt8 × GrowingTrie))
    (waiting : List GrowingTrie) :
    sizeOf (waiting ++ children.map Prod.snd) < sizeOf (node terminal children :: waiting) := by
  have hchildren : sizeOf (children.map Prod.snd) ≤ sizeOf children := by
    induction children with
    | nil => exact Nat.le_refl _
    | cons c children ih =>
      obtain ⟨x, n⟩ := c
      simp only [List.map_cons, List.cons.sizeOf_spec, Prod.mk.sizeOf_spec]
      omega
  have happend : sizeOf (waiting ++ children.map Prod.snd) + 1 =
      sizeOf waiting + sizeOf (children.map Prod.snd) := by
    induction waiting with
    | nil => simp only [List.nil_append, List.nil.sizeOf_spec, Nat.add_comm]
    | cons n waiting ih =>
      simp only [List.cons_append, List.cons.sizeOf_spec]
      omega
  simp only [List.cons.sizeOf_spec, node.sizeOf_spec]
  omega

/-- The nodes of trees, level by level: the children of a node wait until all nodes that are waiting
before them have been met. -/
def walk : List GrowingTrie → List GrowingTrie
  | [] => []
  | n :: waiting => n :: walk (waiting ++ n.children.map Prod.snd)
  termination_by waiting => sizeOf waiting
  decreasing_by
    obtain ⟨terminal, children⟩ := n
    exact sizeOf_append_lt terminal children waiting

end GrowingTrie

end Paradigm
