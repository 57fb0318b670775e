import Paradigm.Storage.BitVector
import Paradigm.Trie.Growing

/-!
# Tries in level order

A trie holds byte strings as paths from its root.  Its nodes are numbered level by level, the root
being node 0, and its shape is a sequence of bits: one for a node above the root, then for every
node in turn a set bit for each child and a clear bit at the end.  The children of a node therefore
have consecutive numbers, and each node is found from its parent, and its parent from it, by
counting bits.

The keys are the paths of the nodes that a second bit vector marks.  The identifier of a key is the
number of marked nodes before its own.

## Main definitions

* `ByteTrie.ofKeys`: the trie of a list of keys
* `ByteTrie.lookup`, `ByteTrie.key`: from a key to its identifier and back
* `ByteTrie.Walk`, `ByteTrie.meet`: the nodes below a node, one after the other
* `ByteTrie.withPrefix`: the keys that begin with given bytes, in byte order
* `ByteTrie.read`, `ByteTrie.write`: the stored form
-/

namespace Paradigm

/-- The alignment of the sections of a dictionary. -/
def sectionAlignment : Nat := 8

/-- A set of byte strings in level order. -/
structure ByteTrie where
  /-- The children of each node: a set bit for each, and a clear bit at the end. -/
  tree : BitVector
  /-- The nodes where a key ends. -/
  terminal : BitVector
  /-- The last byte of the path to each node. -/
  labels : Array UInt8
  deriving DecidableEq

namespace ByteTrie

/-! ## Building -/

/-- The trie with the given keys; their order and repetitions do not matter. -/
def ofKeys (keys : List (List UInt8)) : ByteTrie :=
  let nodes := GrowingTrie.walk [GrowingTrie.ofKeys keys]
  { tree := BitVector.ofList
      (true :: false :: nodes.flatMap fun n => n.children.map (fun _ => true) ++ [false])
    terminal := BitVector.ofList (nodes.map GrowingTrie.terminal)
    labels := (0 :: nodes.flatMap fun n => n.children.map Prod.fst).toArray }

/-! ## Walking -/

/-- The number of keys. -/
def size (t : ByteTrie) : Nat := t.terminal.count

/-- The number of nodes. -/
def nodeCount (t : ByteTrie) : Nat := t.labels.size

/-- The label of a node. -/
def label (t : ByteTrie) (node : Nat) : UInt8 := t.labels[node]?.getD 0

/-- The number of the first child of a node and the number of children. -/
def childSpan (t : ByteTrie) (node : Nat) : Option (Nat × Nat) := do
  let start := (← t.tree.select0 node) + 1
  let stop ← t.tree.select0 (node + 1)
  return (t.tree.rank1 start, stop - start)

/-- The children of a node, in the order of their labels. -/
def children (t : ByteTrie) (node : Nat) : List Nat :=
  match t.childSpan node with
  | some (first, count) => List.range' first count
  | none => []

/-- Halves a run of `count` nodes from `first` on, keeping the upper half unless its first label is
above `x`, until one node is left. -/
def bisect (t : ByteTrie) (x : UInt8) (first count : Nat) : Nat :=
  if 1 < count then
    -- the half kept begins at `first` or at the middle, and is not shorter than the other
    let half := count / 2
    bisect t x (if x < t.label (first + half) then first else first + half) (count - half)
  else first
  termination_by count

/-- The child of a node with a given label. -/
def child (t : ByteTrie) (node : Nat) (x : UInt8) : Option Nat := do
  let (first, count) ← t.childSpan node
  let found := t.bisect x first count
  if 0 < count ∧ t.label found = x then some found else none

/-- The parent of a node; the node above the root is none. -/
def parent (t : ByteTrie) (node : Nat) : Option Nat := do
  -- the clear bits before: one for the node above the root, and one for each before the parent
  match t.tree.rank0 (← t.tree.select1 node) with
  | 0 => none
  | n + 1 => some n

/-- The node at the end of a path. -/
def node? (t : ByteTrie) (path : List UInt8) : Option Nat := path.foldlM t.child 0

/-- The identifier of the key that ends at a node. -/
def keyAt? (t : ByteTrie) (node : Nat) : Option Nat :=
  if t.terminal.get? node = some true then some (t.terminal.rank1 node) else none

/-! ## Queries -/

/-- The identifier of a key. -/
def lookup (t : ByteTrie) (key : List UInt8) : Option Nat := t.node? key >>= t.keyAt?

/-- The labels from the root down to a node, in front of `below`.  A way up that takes more than the
given number of steps is taken for one without an end. -/
def pathTo (t : ByteTrie) : Nat → Nat → List UInt8 → Except StorageError (List UInt8)
  | 0, node, below => if node = 0 then .ok below else .error .endless
  | steps + 1, node, below => do
    if node = 0 then return below
    let label ← Checked.element t.labels node
    match t.parent node with
    | some p => pathTo t steps p (label :: below)
    | none => throw (.corrupt (.orphanNode node))

/-- The key with a given identifier.  A way that passes more nodes than there are comes back to one
of them, and never ends. -/
def key (t : ByteTrie) (id : Nat) : Except StorageError (List UInt8) :=
  match t.terminal.select1 id with
  | some node => t.pathTo t.nodeCount node []
  | none => .error (.indexOutOfBounds id t.size)

/-! ## Walks below a node -/

/-- A node that a walk has still to meet. -/
structure Frame where
  node : Nat
  /-- The length of the key before the label of the node is put behind it. -/
  parentLength : Nat
  /-- Whether the path to the node ends with its label.  The key that a walk begins with is the path
  to its first node already. -/
  labeled : Bool

/-- A walk through a node and all nodes below it, depth first: the nodes that it has still to meet,
the next one first, and the path to the node that it met last. -/
structure Walk where
  stack : List Frame
  key : List UInt8

/-- The path to the node of a frame, which begins as the key does. -/
def Frame.path (t : ByteTrie) (key : List UInt8) (f : Frame) : List UInt8 :=
  let parent := key.take f.parentLength
  if f.labeled then parent ++ [t.label f.node] else parent

/-- The walk that begins at the end of a path. -/
def walkFrom (t : ByteTrie) (start : List UInt8) : Walk :=
  match t.node? start with
  | some node => ⟨[⟨node, start.length, false⟩], start⟩
  | none => ⟨[], start⟩

/-- Meets the next node of a walk, if there is one: the entry of the node, and the walk that goes on
with the children of the node. -/
def meet (t : ByteTrie) (w : Walk) : Option (Option (List UInt8 × Nat) × Walk) :=
  match w.stack with
  | [] => none
  | f :: rest =>
    let key := f.path t w.key
    let frames := (t.children f.node).map fun c => ⟨c, key.length, true⟩
    some ((t.keyAt? f.node).map (key, ·), ⟨frames ++ rest, key⟩)

/-- The entries of the nodes that a walk meets, of which there are `steps` at most. -/
def entriesOf (t : ByteTrie) : Nat → Walk → List (List UInt8 × Nat)
  | 0, _ => []
  | steps + 1, w =>
    match t.meet w with
    | none => []
    | some (entry, w) => entry.toList ++ t.entriesOf steps w

/-- The keys that begin with `start` and their identifiers, in byte order.  There are enough steps
for a walk that meets no node twice. -/
def withPrefix (t : ByteTrie) (start : List UInt8) : List (List UInt8 × Nat) :=
  t.entriesOf t.nodeCount (t.walkFrom start)

/-- All keys and their identifiers, in byte order. -/
def entries (t : ByteTrie) : List (List UInt8 × Nat) := t.withPrefix []

/-! ## The stored form -/

/-- The number of nodes, a reserved number, the bit vectors, the labels, and zeros up to the end of
the section. -/
def write (t : ByteTrie) (out : Writer) : Except StorageError Writer := do
  let out ← out.putCount t.nodeCount
  let out ← t.tree.write (out.put (0 : Int32))
  let out ← t.terminal.write out
  return (out.putAll t.labels.toList).padTo sectionAlignment

/-- The bit vectors have the lengths that belong to the number of nodes, and every node but the one
above the root is somebody's child. -/
def wellShaped (t : ByteTrie) : Bool :=
  t.nodeCount != 0 && t.tree.size == 2 * t.nodeCount + 1 && t.tree.count == t.nodeCount &&
    t.terminal.size == t.nodeCount

/-- Reads a trie. -/
def read : Reader ByteTrie := do
  let count ← Reader.readCount
  let _ ← Reader.read Int32
  let tree ← BitVector.read
  let terminal ← BitVector.read
  let labels ← Reader.readArray UInt8 count
  Reader.skipPadding sectionAlignment
  let t : ByteTrie := ⟨tree, terminal, labels.toArray⟩
  if t.wellShaped then return t
  throw (.corrupt (.trieShape count tree.size terminal.size))

end ByteTrie

end Paradigm
