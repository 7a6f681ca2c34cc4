import DocTree.Proofs.Node.Places
import DocTree.Traversal.Search
import DocTree.Traversal.Visit

/-!
# The events of a visit

Which nodes a visit enters and leaves, and when, is known before it begins: it goes through the tour
of the tree, and calls its visitor for one event after the other, until a call halts it.

## Main definitions

* `Turn`, `Event` — entering or leaving, and the same of a node at its path.
* `Node.tour` — the events around the selected nodes of a tree, in order.
* `Visitor.follow` — the calls for some events, up to the first one that halts.

## Main statements

* `Visitor.follow_append` — the events of a second list are come to when those of the first one do
  not halt.
* `Visitor.visit_eq_follow` — a visit follows the tour.
-/

namespace DocTree

/-- Whether a node is entered or left. -/
inductive Turn where
  | enter
  | leave
deriving DecidableEq

/-- A node at its path is entered or left. -/
structure Event where
  turn : Turn
  located : Located

/-- What a turn at a node comes to: an event when the node is selected. -/
def Select.event (select : Select) (turn : Turn) (path : Path) (node : Node) : List Event :=
  if select node then [⟨turn, ⟨path, node⟩⟩] else []

/-- The nodes of the events of one turn. -/
def Event.ofTurn (turn : Turn) (events : List Event) : List Located :=
  (events.filter (·.turn = turn)).map (·.located)

namespace Event

theorem ofTurn_append (turn : Turn) (xs ys : List Event) :
    ofTurn turn (xs ++ ys) = ofTurn turn xs ++ ofTurn turn ys := by
  simp [ofTurn]

theorem ofTurn_event (turn : Turn) (select : Select) (path : Path) (node : Node) :
    ofTurn turn (select.event turn path node) =
      [⟨path, node⟩].filter fun located => select located.node := by
  cases selected : select node <;> simp [ofTurn, Select.event, selected]

theorem ofTurn_event_of_ne {turn other : Turn} (h : other ≠ turn) (select : Select) (path : Path)
    (node : Node) : ofTurn turn (select.event other path node) = [] := by
  cases selected : select node <;> simp [ofTurn, Select.event, selected, h]

end Event

/-! ## Tours -/

namespace Node

mutual

/-- The events around the selected nodes of the tree at a path: a node is entered before its
children and left after them. -/
def tour (select : Select) (path : Path) : Node → List Event
  | .container head children =>
    select.event .enter path (.container head children) ++ tourAll select path 0 children ++
      select.event .leave path (.container head children)
  | .leaf head value =>
    select.event .enter path (.leaf head value) ++ select.event .leave path (.leaf head value)
  | .empty head => select.event .enter path (.empty head) ++ select.event .leave path (.empty head)

/-- The events around the selected nodes of children from a place on. -/
def tourAll (select : Select) (path : Path) (place : Nat) : List Node → List Event
  | [] => []
  | node :: nodes => tour select (path.child place) node ++ tourAll select path (place + 1) nodes

end

theorem tour_eq (select : Select) (path : Path) (node : Node) :
    node.tour select path = select.event .enter path node ++
      tourAll select path 0 node.children ++ select.event .leave path node := by
  cases node <;> simp [tour, tourAll, children]

end Node

/-! ## Calls -/

namespace Visitor

variable {σ : Type}

/-- The call of a visitor for an event. -/
def call (visitor : Visitor σ) (event : Event) (state : σ) : Signal × σ :=
  match event.turn with
  | .enter => visitor.enter event.located.path event.located.node state
  | .leave => visitor.leave event.located.path event.located.node state

/-- The calls for some events in turn, up to the first one that halts. -/
def follow (visitor : Visitor σ) : List Event → σ → Signal × σ
  | [], state => (.proceed, state)
  | event :: events, state =>
    match visitor.call event state with
    | (.halt, state) => (.halt, state)
    | (.proceed, state) => visitor.follow events state

/-- The events of a second list are come to when those of the first one do not halt. -/
theorem follow_append (visitor : Visitor σ) (xs ys : List Event) (state : σ) :
    visitor.follow (xs ++ ys) state =
      match visitor.follow xs state with
      | (.halt, state) => (.halt, state)
      | (.proceed, state) => visitor.follow ys state := by
  induction xs generalizing state with
  | nil => rfl
  | cons event xs ih =>
    rw [List.cons_append, follow, follow]
    rcases visitor.call event state with ⟨_ | _, next⟩
    · exact ih next
    · rfl

theorem callIf_enter (visitor : Visitor σ) (select : Select) (path : Path) (node : Node)
    (state : σ) : callIf (select node) visitor.enter path node state =
      visitor.follow (select.event .enter path node) state := by
  unfold callIf Select.event
  split
  · simp only [follow, call]
    rcases visitor.enter path node state with ⟨_ | _, next⟩ <;> rfl
  · rfl

theorem callIf_leave (visitor : Visitor σ) (select : Select) (path : Path) (node : Node)
    (state : σ) : callIf (select node) visitor.leave path node state =
      visitor.follow (select.event .leave path node) state := by
  unfold callIf Select.event
  split
  · simp only [follow, call]
    rcases visitor.leave path node state with ⟨_ | _, next⟩ <;> rfl
  · rfl

/-! ## Visits -/

theorem walkAll_eq_follow {visitor : Visitor σ} {select : Select} {nodes : List Node}
    (below : ∀ node ∈ nodes, ∀ path state,
      walk visitor select path node state = visitor.follow (node.tour select path) state)
    (path : Path) (place : Nat) (state : σ) :
    walkAll visitor select path place nodes state =
      visitor.follow (Node.tourAll select path place nodes) state := by
  induction nodes generalizing place state with
  | nil => rfl
  | cons node nodes ih =>
    obtain ⟨here, later⟩ := List.forall_mem_cons.1 below
    rw [walkAll, Node.tourAll, follow_append, here]
    rcases visitor.follow (node.tour select (path.child place)) state with ⟨_ | _, next⟩
    · exact ih later (place + 1) next
    · rfl

theorem walkEnd_eq_follow (visitor : Visitor σ) (select : Select) (path : Path) (node : Node)
    (state : σ) : walk.walkEnd visitor select path node state =
      visitor.follow (select.event .enter path node ++ select.event .leave path node) state := by
  rw [walk.walkEnd, follow_append, callIf_enter]
  rcases visitor.follow (select.event .enter path node) state with ⟨_ | _, entered⟩
  · exact callIf_leave ..
  · rfl

/-- The walk of a tree at a path follows its tour. -/
theorem walk_eq_follow (visitor : Visitor σ) (select : Select) (node : Node) (path : Path)
    (state : σ) :
    walk visitor select path node state = visitor.follow (node.tour select path) state := by
  induction node generalizing path state with
  | container head children ih =>
    have all := walkAll_eq_follow fun child mem path state => ih child mem path state
    rw [walk, Node.tour, List.append_assoc, follow_append, ← callIf_enter]
    rcases callIf (select (.container head children)) visitor.enter path (.container head children)
      state with ⟨_ | _, entered⟩
    · dsimp only
      rw [follow_append, ← all]
      rcases walkAll visitor select path 0 children entered with ⟨_ | _, next⟩
      · exact callIf_leave ..
      · rfl
    · rfl
  | leaf head value =>
    rw [walk, Node.tour]
    exact walkEnd_eq_follow ..
  | empty head =>
    rw [walk, Node.tour]
    exact walkEnd_eq_follow ..

/-- A visit follows the tour. -/
theorem visit_eq_follow (visitor : Visitor σ) (select : Select) (tree : Node) (state : σ) :
    visitor.visit select tree state = visitor.follow (tree.tour select .root) state :=
  walk_eq_follow visitor select tree .root state

end Visitor
end DocTree
