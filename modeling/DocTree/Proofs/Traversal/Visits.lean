import DocTree.Proofs.Traversal.Entering

/-!
# What a visit calls

A visitor may halt a visit at any call. When it does not, it is called for all events of the tour,
which are nested like the tree. When it does, it has been called for the first ones of them, up to
the one where it halted: none comes after that, nor is a node left that has been entered before.

## Main definitions

* `Event.Nested` — nodes are left in the reverse order of entering them.
* `Reply`, `Visitor.recorded` — a call with its answer, and the visitor that keeps an account of
  them.
* `Visitor.replies` — the calls of a visit.
* `Visitor.Bracketed` — what the calls of a visit are.

## Main statements

* `Node.nested_tour` — the tour of a tree is nested.
* `Node.countP_tour` — each selected node is entered and left once.
* `Visitor.follow_recorded` — recording changes nothing.
* `Visitor.visit_bracketed` — the calls of a visit are its tour, up to the one that halts.
-/

namespace DocTree

/-! ## Nested events -/

/-- Each node that is entered is left at the same path, after the nodes that were entered since. -/
inductive Event.Nested : List Event → Prop
  | nil : Nested []
  | around {events : List Event} (located : Located) : Nested events →
      Nested (⟨.enter, located⟩ :: events ++ [⟨.leave, located⟩])
  | append {xs ys : List Event} : Nested xs → Nested ys → Nested (xs ++ ys)

namespace Node

variable {select : Select} {path : Path} {node found : Node} {nodes : List Node} {places : List Nat}

theorem nested_tourAll (below : ∀ node ∈ nodes, ∀ path, Event.Nested (node.tour select path))
    (path : Path) (place : Nat) : Event.Nested (tourAll select path place nodes) := by
  induction nodes generalizing place with
  | nil => exact .nil
  | cons node nodes ih =>
    obtain ⟨here, later⟩ := List.forall_mem_cons.1 below
    exact (here _).append (ih later _)

/-- The tour of a tree is nested. -/
theorem nested_tour (select : Select) (node : Node) (path : Path) :
    Event.Nested (node.tour select path) := by
  induction node using inductChildren generalizing path with
  | step node ih =>
    have children := nested_tourAll ih path 0
    rw [tour_eq]
    unfold Select.event
    split
    · exact .around ⟨path, node⟩ children
    · simpa using children

/-! ## Events of a tour -/

/-- A tour enters the selected nodes of a tree, and leaves the same. -/
theorem ofTurn_tour_perm (turn : Turn) (select : Select) (node : Node) (path : Path) :
    (Event.ofTurn turn (node.tour select path)).Perm (select.among (node.preorder path)) := by
  cases turn with
  | enter => rw [ofTurn_enter_tour]
  | leave =>
    rw [ofTurn_leave_tour]
    exact (preorder_perm node path).symm.filter _

/-- The selected nodes of a tree are told by their paths. -/
theorem mem_paths_among_iff (there : node.at? places = some found) :
    path.along places ∈ (select.among (node.preorder path)).map (·.path) ↔ select found = true := by
  simp only [Select.among, List.mem_map, List.mem_filter, mem_preorder_iff]
  constructor
  · rintro ⟨located, ⟨⟨others, along, there'⟩, selected⟩, same⟩
    obtain rfl : others = places := Path.along_inj.1 (along.symm.trans same)
    obtain rfl := Option.some.inj (there.symm.trans there')
    exact selected
  · intro selected
    exact ⟨⟨path.along places, found⟩, ⟨⟨places, rfl, there⟩, selected⟩, rfl⟩

/-- Each selected node of a tree is entered and left once, and no other node is. -/
theorem countP_tour (turn : Turn) (select : Select) (path : Path)
    (there : node.at? places = some found) :
    ((node.tour select path).countP fun event =>
      event.turn = turn ∧ event.located.path = path.along places) =
        if select found then 1 else 0 := by
  have once : ((select.among (node.preorder path)).map (·.path)).Nodup :=
    (preorder_nodup node path).sublist (List.filter_sublist.map _)
  calc ((node.tour select path).countP fun event =>
        event.turn = turn ∧ event.located.path = path.along places)
      = ((Event.ofTurn turn (node.tour select path)).map (·.path)).count (path.along places) := by
        simp [Event.ofTurn, List.count, List.countP_map, List.countP_filter, Function.comp_def,
          Bool.and_comm, Bool.beq_eq_decide_eq]
    _ = ((select.among (node.preorder path)).map (·.path)).count (path.along places) :=
        ((ofTurn_tour_perm turn select node path).map _).count_eq _
    _ = if select found then 1 else 0 := by
        simp only [once.count, mem_paths_among_iff there]

/-- The events of a tour are those of selected nodes at their paths. -/
theorem exists_at?_of_mem_tour {event : Event} (mem : event ∈ node.tour select path) :
    ∃ places, event.located.path = path.along places ∧
      node.at? places = some event.located.node ∧ select event.located.node = true := by
  have turned : event.located ∈ Event.ofTurn event.turn (node.tour select path) :=
    List.mem_map_of_mem (List.mem_filter.2 ⟨mem, decide_eq_true rfl⟩)
  obtain ⟨found, selected⟩ := List.mem_filter.1
    ((ofTurn_tour_perm event.turn select node path).mem_iff.1 turned)
  obtain ⟨places, along, there⟩ := mem_preorder_iff.1 found
  exact ⟨places, along, there, selected⟩

end Node

/-! ## Recording -/

/-- What a visitor was called for, and its answer. -/
structure Reply where
  event : Event
  signal : Signal

namespace Visitor

variable {σ : Type} {visitor : Visitor σ} {events : List Event} {state : σ}

/-- The visitor that keeps an account of its calls beside its state. -/
def recorded (visitor : Visitor σ) : Visitor (σ × List Reply) where
  enter path node state :=
    let (signal, next) := visitor.enter path node state.1
    (signal, next, state.2 ++ [⟨⟨.enter, ⟨path, node⟩⟩, signal⟩])
  leave path node state :=
    let (signal, next) := visitor.leave path node state.1
    (signal, next, state.2 ++ [⟨⟨.leave, ⟨path, node⟩⟩, signal⟩])

/-- The calls of a visit with their answers, in order. -/
def replies (visitor : Visitor σ) (select : Select) (tree : Node) (state : σ) : List Reply :=
  (visitor.recorded.visit select tree (state, [])).2.2

/-- The calls for some events in turn, up to the first one that halts, with their answers. -/
def answers (visitor : Visitor σ) : List Event → σ → List Reply
  | [], _ => []
  | event :: events, state =>
    match visitor.call event state with
    | (.halt, _) => [⟨event, .halt⟩]
    | (.proceed, next) => ⟨event, .proceed⟩ :: visitor.answers events next

theorem call_recorded (visitor : Visitor σ) (event : Event) (state : σ) (noted : List Reply) :
    visitor.recorded.call event (state, noted) =
      ((visitor.call event state).1, (visitor.call event state).2,
        noted ++ [⟨event, (visitor.call event state).1⟩]) := by
  obtain ⟨turn, path, node⟩ := event
  cases turn <;> rfl

/-- Recording changes nothing. -/
theorem follow_recorded (visitor : Visitor σ) (events : List Event) (state : σ)
    (noted : List Reply) :
    visitor.recorded.follow events (state, noted) =
      ((visitor.follow events state).1, (visitor.follow events state).2,
        noted ++ visitor.answers events state) := by
  induction events generalizing state noted with
  | nil => simp [follow, answers]
  | cons event events ih =>
    rw [follow, follow, answers, call_recorded]
    rcases visitor.call event state with ⟨_ | _, next⟩
    · simp [ih]
    · rfl

theorem visit_recorded (visitor : Visitor σ) (select : Select) (tree : Node) (state : σ) :
    visitor.recorded.visit select tree (state, []) =
      ((visitor.visit select tree state).1, (visitor.visit select tree state).2,
        visitor.replies select tree state) := by
  simp only [replies, visit_eq_follow, follow_recorded]

/-- The calls of a visit are those for the events of its tour. -/
theorem replies_eq (visitor : Visitor σ) (select : Select) (tree : Node) (state : σ) :
    visitor.replies select tree state = visitor.answers (tree.tour select .root) state := by
  rw [replies, visit_eq_follow, follow_recorded, List.nil_append]

/-! ## Halting -/

/-- When no call halts, all events have been come to. -/
theorem answers_of_proceed
    (proceeds : ∀ reply ∈ visitor.answers events state, reply.signal = .proceed) :
    (visitor.answers events state).map (·.event) = events ∧
      (visitor.follow events state).1 = .proceed := by
  induction events generalizing state with
  | nil => exact ⟨rfl, rfl⟩
  | cons event events ih =>
    rcases called : visitor.call event state with ⟨_ | _, next⟩
    · simp only [answers, follow, called] at proceeds ⊢
      obtain ⟨later, signal⟩ := ih (List.forall_mem_cons.1 proceeds).2
      exact ⟨congrArg (event :: ·) later, signal⟩
    · simp only [answers, called] at proceeds
      cases proceeds _ List.mem_cons_self

/-- A call that halts is the last one. -/
theorem answers_of_halt {n : Nat} {reply : Reply}
    (replied : (visitor.answers events state)[n]? = some reply) (halts : reply.signal = .halt) :
    (visitor.answers events state).map (·.event) = events.take (n + 1) ∧
      (visitor.follow events state).1 = .halt := by
  induction events generalizing state n with
  | nil => cases replied
  | cons event events ih =>
    rcases called : visitor.call event state with ⟨_ | _, next⟩
    · simp only [answers, follow, called] at replied ⊢
      cases n with
      | zero =>
        obtain rfl := Option.some.inj replied
        cases halts
      | succ n =>
        obtain ⟨later, signal⟩ := ih replied
        exact ⟨congrArg (event :: ·) later, signal⟩
    · simp only [answers, follow, called] at replied ⊢
      cases n with
      | zero => exact ⟨rfl, trivial⟩
      | succ n => cases replied

/-- What the calls of a visit are. -/
structure Bracketed (visitor : Visitor σ) (select : Select) (tree : Node) (state : σ) : Prop where
  /-- The visit calls the visitor for the events of the tour, up to the first call that halts. -/
  follows : visitor.visit select tree state = visitor.follow (tree.tour select .root) state
  /-- The account of the calls is kept beside a visit that it does not change. -/
  recorded : visitor.recorded.visit select tree (state, []) =
    ((visitor.visit select tree state).1, (visitor.visit select tree state).2,
      visitor.replies select tree state)
  /-- When no call halts, there has been one for each event of the tour, and the visit goes to its
  end. -/
  whole : (∀ reply ∈ visitor.replies select tree state, reply.signal = .proceed) →
    (visitor.replies select tree state).map (·.event) = tree.tour select .root ∧
      (visitor.visit select tree state).1 = .proceed
  /-- When a call halts, it is the last one: the calls up to it are for the first events of the
  tour, and the visit is halted. -/
  cut : ∀ (n : Nat) reply, (visitor.replies select tree state)[n]? = some reply →
    reply.signal = .halt →
    (visitor.replies select tree state).map (·.event) = (tree.tour select .root).take (n + 1) ∧
      (visitor.visit select tree state).1 = .halt
  /-- Nodes are left in the reverse order of entering them. -/
  nested : Event.Nested (tree.tour select .root)
  /-- A node that is selected is entered once and left once, at its path, and another one is not. -/
  once : ∀ turn places node, tree.at? places = some node →
    ((tree.tour select .root).countP fun event =>
      event.turn = turn ∧ event.located.path = .ofPlaces places) = if select node then 1 else 0
  /-- All events are those of selected nodes at their paths. -/
  only : ∀ event ∈ tree.tour select .root, ∃ places, event.located.path = .ofPlaces places ∧
    tree.at? places = some event.located.node ∧ select event.located.node = true

/-- **Visits are bracketed.** A visit calls its visitor for the events of the tour, in which each
selected node is entered once, before its children, and left once, after them, until a call halts.
The call that halts is the last one, and without one there is a call for each event. -/
theorem visit_bracketed (visitor : Visitor σ) (select : Select) (tree : Node) (state : σ) :
    Bracketed visitor select tree state where
  follows := visit_eq_follow visitor select tree state
  recorded := visit_recorded visitor select tree state
  whole proceeds := by
    rw [replies_eq] at proceeds ⊢
    rw [visit_eq_follow]
    exact answers_of_proceed proceeds
  cut n reply called halts := by
    rw [replies_eq] at called ⊢
    rw [visit_eq_follow]
    exact answers_of_halt called halts
  nested := Node.nested_tour select tree .root
  once turn places node there := by
    rw [← Path.root_along]
    exact Node.countP_tour turn select .root there
  only event mem := by
    obtain ⟨places, along, found⟩ := Node.exists_at?_of_mem_tour mem
    exact ⟨places, along.trans (Path.root_along places), found⟩

end Visitor
end DocTree
