import DocTree.Path
import DocTree.Traversal.Select

/-!
# Visits

A visit walks a tree from the root, and calls a visitor on the selected nodes: on entering a
node, and on leaving it after its children. Nodes that are not selected are walked through. The
visitor carries a state and may end the walk at any call.

## Main definitions

- `Visitor`: what is done on entering and on leaving a node.
- `Visitor.visit`: the walk over a tree.
-/

namespace DocTree

/-- Whether a walk goes on. -/
inductive Signal where
  | proceed
  | halt
deriving DecidableEq, Repr

/-- What is done on entering and on leaving a selected node. -/
structure Visitor (σ : Type) where
  enter : Path → Node → σ → Signal × σ
  leave : Path → Node → σ → Signal × σ := fun _ _ state => (.proceed, state)

namespace Visitor

variable {σ : Type}

/-- A call for a node that is selected, and nothing for another. -/
def callIf (selected : Bool) (hook : Path → Node → σ → Signal × σ) (path : Path) (node : Node)
    (state : σ) : Signal × σ :=
  if selected then hook path node state else (.proceed, state)

mutual

/-- Walks a tree at a path. -/
def walk (visitor : Visitor σ) (select : Select) (path : Path) : Node → σ → Signal × σ
  | .container head children, state =>
    let node := Node.container head children
    match callIf (select node) visitor.enter path node state with
    | (.halt, state) => (.halt, state)
    | (.proceed, state) =>
      match walkAll visitor select path 0 children state with
      | (.halt, state) => (.halt, state)
      | (.proceed, state) => callIf (select node) visitor.leave path node state
  | .leaf head value, state => walkEnd (.leaf head value) state
  | .empty head, state => walkEnd (.empty head) state
where
  /-- Calls both hooks for a node without children. -/
  walkEnd (node : Node) (state : σ) : Signal × σ :=
    match callIf (select node) visitor.enter path node state with
    | (.halt, state) => (.halt, state)
    | (.proceed, state) => callIf (select node) visitor.leave path node state

/-- Walks children from a place on. -/
def walkAll (visitor : Visitor σ) (select : Select) (path : Path) (place : Nat) :
    List Node → σ → Signal × σ
  | [], state => (.proceed, state)
  | node :: nodes, state =>
    match walk visitor select (path.child place) node state with
    | (.halt, state) => (.halt, state)
    | (.proceed, state) => walkAll visitor select path (place + 1) nodes state

end

/-- Walks a tree from the root. -/
def visit (visitor : Visitor σ) (select : Select) (tree : Node) (state : σ) : Signal × σ :=
  walk visitor select .root tree state

end Visitor
end DocTree
