import DocTree.Path
import DocTree.Traversal.Select

/-!
# Searches

A search yields the selected nodes of a tree one by one, parents before children and children
from left to right. It tests a node only when it comes to it, so nothing behind the last yielded
node has been looked at. The test carries a state, and so may keep an account of what it was asked.

## Main definitions

- `Probe`: a test of nodes with its state.
- `Search.next?`: the next node that passes the test.
- `Search.collect`: so many nodes that pass it.
- `Search.take`, `Search.found`: so many selected nodes, and all of them, with their tests counted.
-/

namespace DocTree

/-- A node at its path. -/
structure Located where
  path : Path
  node : Node

/-- A test of nodes, with a state that is carried from call to call. It is given the path of a node
besides, which tells equal nodes apart. -/
abbrev Probe (σ : Type) := Located → σ → Bool × σ

/-- The test by a selection that counts how often it is asked. -/
def Select.counted (select : Select) : Probe Nat := fun located count =>
  (select located.node, count + 1)

/-- A search under way: the nodes whose subtrees are still to be tested, in order, and the state of
its test. -/
structure Search (σ : Type) where
  pending : List Located
  state : σ

namespace Search

variable {σ : Type}

/-- The search of a whole tree, with a state of its test. -/
def ofTree (tree : Node) (state : σ) : Search σ := ⟨[⟨.root, tree⟩], state⟩

/-- The children of a node from a place on, at their paths. -/
def childrenFrom (path : Path) (place : Nat) : List Node → List Located
  | [] => []
  | node :: nodes => ⟨path.child place, node⟩ :: childrenFrom path (place + 1) nodes

/-- How many nodes are still to be tested. -/
def remaining (pending : List Located) : Nat := Node.sizeAll (pending.map (·.node))

theorem remaining_childrenFrom (path : Path) (place : Nat) (nodes : List Node) :
    remaining (childrenFrom path place nodes) = Node.sizeAll nodes := by
  induction nodes generalizing place with
  | nil => rfl
  | cons node nodes ih =>
    simp only [childrenFrom, remaining, Node.sizeAll, List.map_cons] at ih ⊢
    rw [ih]

theorem size_eq (node : Node) : node.size = 1 + Node.sizeAll node.children := by
  cases node <;> simp [Node.size, Node.children, Node.sizeAll]

theorem remaining_append (xs ys : List Located) :
    remaining (xs ++ ys) = remaining xs + remaining ys := by
  induction xs with
  | nil => simp [remaining, Node.sizeAll]
  | cons x xs ih =>
    simp only [remaining, Node.sizeAll, List.cons_append, List.map_cons] at ih ⊢
    omega

/-- Tests nodes until one passes: that node, and the search after it. -/
def next? (probe : Probe σ) (search : Search σ) : Option Located × Search σ :=
  match search with
  | ⟨[], state⟩ => (none, ⟨[], state⟩)
  | ⟨current :: rest, state⟩ =>
    let (passed, state) := probe current state
    let search := ⟨childrenFrom current.path 0 current.node.children ++ rest, state⟩
    if passed then (some current, search) else next? probe search
termination_by remaining search.pending
decreasing_by
  rw [remaining_append, remaining_childrenFrom]
  simp only [remaining, Node.sizeAll, List.map_cons, size_eq current.node]
  omega

/-- The next nodes that pass, at most so many, and the search after them. -/
def collect (probe : Probe σ) : Nat → Search σ → List Located × Search σ
  | 0, search => ([], search)
  | count + 1, search =>
    match search.next? probe with
    | (none, search) => ([], search)
    | (some located, search) =>
      let (later, search) := collect probe count search
      (located :: later, search)

/-! ## Selected nodes -/

/-- The search of a whole tree for selected nodes. -/
def start (tree : Node) : Search Nat := ofTree tree 0

/-- How many nodes have been tested. -/
def examined (search : Search Nat) : Nat := search.state

/-- The next selected nodes, at most so many, and the search after them. -/
def take (select : Select) : Nat → Search Nat → List Located × Search Nat := collect select.counted

/-- All selected nodes of a tree. A tree has no more nodes than its size. -/
def found (select : Select) (tree : Node) : List Located :=
  (take select (tree.size + 1) (start tree)).1

end Search
end DocTree
