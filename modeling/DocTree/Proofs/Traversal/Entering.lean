import DocTree.Proofs.Traversal.Order

/-!
# The order of entering

A visit enters each node before its children. The nodes in this order, each with its path, are the
pre-order of a tree. Their paths are in increasing order.

## Main definitions

* `Node.preorder` — the nodes of a tree at their paths, a parent before its children.
* `Visitor.enterNotes` — the visitor that notes what it enters.

## Main statements

* `Node.ofTurn_enter_tour`, `Visitor.visit_enterNotes` — a visit enters the selected nodes in
  pre-order.
* `Node.mem_preorder_iff` — the pre-order has the nodes at all places.
* `Node.preorder_increasing` — it has them in the order of their paths.
-/

namespace DocTree

/-! ## The order of paths -/

namespace Path

theorem compareLex_append {α : Type} {cmp : α → α → Ordering} (same : ∀ x, cmp x x = .eq)
    (xs ys zs : List α) :
    List.compareLex cmp (xs ++ ys) (xs ++ zs) = List.compareLex cmp ys zs := by
  induction xs with
  | nil => rfl
  | cons x xs ih =>
    rw [List.cons_append, List.cons_append, List.compareLex_cons_cons, same]
    exact ih

theorem compare_segment_self (segment : Segment) : compare segment segment = .eq := by
  cases segment with
  | index place => exact Nat.compare_eq_eq.2 rfl
  | field name =>
    change compareOfLessAndEq name name = .eq
    rw [compareOfLessAndEq, if_neg (String.lt_irrefl name), if_pos rfl]

/-- Paths that begin in the same way are told apart by what follows. -/
theorem compare_along (path : Path) (ps qs : List Nat) :
    compare (path.along ps) (path.along qs) =
      List.compareLex compare (ps.map Segment.index) (qs.map .index) := by
  have segments : ∀ places, (path.along places).segments = path.segments ++ places.map .index :=
    fun places => by simp [Path.segments, upward_along]
  change List.compareLex compare (path.along ps).segments (path.along qs).segments = _
  rw [segments, segments, compareLex_append compare_segment_self]

/-- A path comes before all paths further down. -/
theorem compare_along_below (path : Path) (place : Nat) (places : List Nat) :
    compare path (path.along (place :: places)) = .lt :=
  compare_along path [] (place :: places)

/-- What is below a child comes before what is below a later one. -/
theorem compare_along_beside (path : Path) {i j : Nat} (h : i < j) (ps qs : List Nat) :
    compare (path.along (i :: ps)) (path.along (j :: qs)) = .lt := by
  rw [compare_along, List.map_cons, List.map_cons, List.compareLex_cons_cons,
    show compare (Segment.index i) (.index j) = .lt from Nat.compare_eq_lt.2 h]
  rfl

end Path

/-! ## Pre-order -/

namespace Node

mutual

/-- The nodes of the tree at a path, each with its own path, a parent before its children. -/
def preorder (path : Path) : Node → List Located
  | .container head children => ⟨path, .container head children⟩ :: preorderAll path 0 children
  | .leaf head value => [⟨path, .leaf head value⟩]
  | .empty head => [⟨path, .empty head⟩]

/-- The nodes of children from a place on. -/
def preorderAll (path : Path) (place : Nat) : List Node → List Located
  | [] => []
  | node :: nodes => preorder (path.child place) node ++ preorderAll path (place + 1) nodes

end

variable {path : Path} {place : Nat} {node : Node} {nodes : List Node} {located : Located}

theorem preorder_eq (path : Path) (node : Node) :
    node.preorder path = ⟨path, node⟩ :: preorderAll path 0 node.children := by
  cases node <;> rfl

theorem preorderAll_perm
    (below : ∀ node ∈ nodes, ∀ path, (node.preorder path).Perm (node.postorder path)) (path : Path)
    (place : Nat) : (preorderAll path place nodes).Perm (postorderAll path place nodes) := by
  induction nodes generalizing place with
  | nil => exact .nil
  | cons node nodes ih =>
    obtain ⟨here, later⟩ := List.forall_mem_cons.1 below
    exact (here _).append (ih later _)

/-- The pre-order and the post-order have the same nodes. -/
theorem preorder_perm (node : Node) (path : Path) :
    (node.preorder path).Perm (node.postorder path) := by
  induction node using inductChildren generalizing path with
  | step node ih =>
    rw [preorder_eq, postorder_eq]
    exact ((preorderAll_perm ih path 0).cons _).trans (List.perm_append_singleton _ _).symm

/-- No path comes twice. -/
theorem preorder_nodup (node : Node) (path : Path) : ((node.preorder path).map (·.path)).Nodup :=
  ((preorder_perm node path).map _).nodup_iff.2 (postorder_nodup node path)

/-- The pre-order has the nodes at all places, at their paths. -/
theorem mem_preorder_iff : located ∈ node.preorder path ↔
    ∃ places, located.path = path.along places ∧ node.at? places = some located.node :=
  (preorder_perm node path).mem_iff.trans mem_postorder_iff

theorem exists_along_of_mem_preorderAll (h : located ∈ preorderAll path place nodes) :
    ∃ further places, located.path = path.along ((place + further) :: places) :=
  exists_along_of_mem_postorderAll <|
    (preorderAll_perm (fun node _ path => preorder_perm node path) path place).mem_iff.1 h

theorem length_preorderAll (below : ∀ node ∈ nodes, ∀ path, (node.preorder path).length = node.size)
    (path : Path) (place : Nat) : (preorderAll path place nodes).length = sizeAll nodes := by
  induction nodes generalizing place with
  | nil => rfl
  | cons node nodes ih =>
    obtain ⟨here, later⟩ := List.forall_mem_cons.1 below
    rw [preorderAll, List.length_append, here, ih later, sizeAll]

/-- The pre-order has as many nodes as the tree. -/
theorem length_preorder (node : Node) (path : Path) : (node.preorder path).length = node.size := by
  induction node using inductChildren generalizing path with
  | step node ih =>
    rw [preorder_eq, List.length_cons, length_preorderAll ih, Search.size_eq, Nat.add_comm]

/-- One node comes before another in the order of their paths. -/
def Precedes (x y : Located) : Prop := compare x.path y.path = .lt

theorem preorderAll_increasing
    (below : ∀ node ∈ nodes, ∀ path, (node.preorder path).Pairwise Precedes) (path : Path)
    (place : Nat) : (preorderAll path place nodes).Pairwise Precedes := by
  induction nodes generalizing place with
  | nil => exact .nil
  | cons node nodes ih =>
    obtain ⟨here, later⟩ := List.forall_mem_cons.1 below
    refine List.pairwise_append.2 ⟨here _, ih later _, fun x first y second => ?_⟩
    obtain ⟨places, along, -⟩ := mem_preorder_iff.1 first
    obtain ⟨further, places', along'⟩ := exists_along_of_mem_preorderAll second
    rw [Precedes, along, along', ← Path.along_cons]
    exact Path.compare_along_beside path (by omega) _ _

/-- The pre-order is the order of the paths. -/
theorem preorder_increasing (node : Node) (path : Path) :
    (node.preorder path).Pairwise Precedes := by
  induction node using inductChildren generalizing path with
  | step node ih =>
    rw [preorder_eq]
    refine List.pairwise_cons.2 ⟨fun x mem => ?_, preorderAll_increasing ih path 0⟩
    obtain ⟨further, places, along⟩ := exists_along_of_mem_preorderAll mem
    rw [Precedes, along]
    exact Path.compare_along_below path _ _

end Node

/-! ## Entering -/

/-- The selected ones among nodes, in their order. -/
def Select.among (select : Select) (nodes : List Located) : List Located :=
  nodes.filter fun located => select located.node

theorem Select.among_append (select : Select) (xs ys : List Located) :
    select.among (xs ++ ys) = select.among xs ++ select.among ys :=
  List.filter_append xs ys

namespace Node

variable {nodes : List Node}

theorem ofTurn_enter_tourAll {select : Select}
    (below : ∀ node ∈ nodes, ∀ path, Event.ofTurn .enter (node.tour select path) =
      select.among (node.preorder path))
    (path : Path) (place : Nat) : Event.ofTurn .enter (tourAll select path place nodes) =
      select.among (preorderAll path place nodes) := by
  induction nodes generalizing place with
  | nil => rfl
  | cons node nodes ih =>
    obtain ⟨here, later⟩ := List.forall_mem_cons.1 below
    rw [tourAll, preorderAll, Event.ofTurn_append, Select.among_append, here, ih later]

/-- A tour enters the selected nodes in pre-order. -/
theorem ofTurn_enter_tour (select : Select) (node : Node) (path : Path) :
    Event.ofTurn .enter (node.tour select path) = select.among (node.preorder path) := by
  induction node using inductChildren generalizing path with
  | step node ih =>
    have all := ofTurn_enter_tourAll ih path 0
    rw [tour_eq, preorder_eq, Event.ofTurn_append, Event.ofTurn_append, all, Event.ofTurn_event,
      Event.ofTurn_event_of_ne Turn.noConfusion, List.append_nil]
    exact (Select.among_append select [⟨path, node⟩] _).symm

end Node

namespace Visitor

/-- The visitor that notes nodes when it enters them. -/
def enterNotes : Visitor (List Located) where
  enter path node noted := (.proceed, noted ++ [⟨path, node⟩])

theorem follow_enterNotes (events : List Event) (noted : List Located) :
    enterNotes.follow events noted = (.proceed, noted ++ Event.ofTurn .enter events) := by
  induction events generalizing noted with
  | nil => simp [follow, Event.ofTurn]
  | cons event events ih =>
    obtain ⟨turn, located⟩ := event
    cases turn with
    | enter => simpa [follow, call, enterNotes, Event.ofTurn] using ih (noted ++ [located])
    | leave => simpa [follow, call, enterNotes, Event.ofTurn] using ih noted

/-- A visit enters the selected nodes of a tree in pre-order. -/
theorem visit_enterNotes (select : Select) (tree : Node) :
    enterNotes.visit select tree [] = (.proceed, select.among (tree.preorder .root)) := by
  rw [visit_eq_follow, follow_enterNotes, Node.ofTurn_enter_tour, List.nil_append]

end Visitor
end DocTree
