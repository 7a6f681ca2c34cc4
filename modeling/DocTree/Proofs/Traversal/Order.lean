import DocTree.Proofs.Traversal.Events

/-!
# The order of leaving

A visit leaves each node after its children. The nodes in this order, each with its path, are the
post-order of a tree: it has every node once, at its place.

## Main definitions

* `Path.along`, `Path.parent?` — paths further down, and one step up.
* `Node.postorder` — the nodes of a tree at their paths, children before their parent.
* `Visitor.leaveNotes` — the visitor that notes what it leaves.

## Main statements

* `Node.ofTurn_leave_tour`, `Visitor.visit_leaveNotes` — a visit leaves nodes in post-order.
* `Node.mem_postorder_iff` — the post-order has the nodes at all places.
* `Node.postorder_nodup` — no path comes twice.
-/

namespace DocTree

/-! ## Paths -/

namespace Path

/-- The path that goes on to a place below. -/
def along (path : Path) (places : List Nat) : Path := places.foldl child path

/-- The path of the parent, when the last step is that to a child. -/
def parent? (path : Path) : Option Path :=
  match path.upward with
  | .index _ :: rest => some ⟨rest⟩
  | _ => none

variable {path : Path} {places : List Nat}

@[simp] theorem along_cons (path : Path) (place : Nat) (places : List Nat) :
    path.along (place :: places) = (path.child place).along places := rfl

theorem child_along (path : Path) (places : List Nat) (place : Nat) :
    (path.along places).child place = path.along (places ++ [place]) := by
  simp [along]

theorem upward_along (path : Path) (places : List Nat) :
    (path.along places).upward = (places.map .index).reverse ++ path.upward := by
  induction places generalizing path with
  | nil => rfl
  | cons place places ih => simp [ih, child, push]

theorem along_inj {other : List Nat} : path.along places = path.along other ↔ places = other := by
  refine ⟨fun h => ?_, fun h => h ▸ rfl⟩
  have upward := congrArg Path.upward h
  rw [upward_along, upward_along, List.append_cancel_right_eq, List.reverse_inj] at upward
  exact (List.map_inj_right fun _ _ => Segment.index.inj).1 upward

theorem root_along (places : List Nat) : root.along places = ofPlaces places := by
  have upward := upward_along root places
  rw [show root.upward = [] from rfl, List.append_nil] at upward
  exact congrArg Path.mk upward

theorem parent?_eq_some_iff {parent : Path} :
    path.parent? = some parent ↔ ∃ place, path = parent.child place := by
  obtain ⟨upward⟩ := path
  obtain ⟨above⟩ := parent
  match upward with
  | [] => simp [parent?, child, push]
  | .field _ :: rest => simp [parent?, child, push]
  | .index place :: rest => simp [parent?, child, push]

end Path

/-! ## Post-order -/

namespace Node

mutual

/-- The nodes of the tree at a path, each with its own path, children before their parent. -/
def postorder (path : Path) : Node → List Located
  | .container head children =>
    postorderAll path 0 children ++ [⟨path, .container head children⟩]
  | .leaf head value => [⟨path, .leaf head value⟩]
  | .empty head => [⟨path, .empty head⟩]

/-- The nodes of children from a place on. -/
def postorderAll (path : Path) (place : Nat) : List Node → List Located
  | [] => []
  | node :: nodes => postorder (path.child place) node ++ postorderAll path (place + 1) nodes

end

variable {path : Path} {place : Nat} {node : Node} {nodes : List Node} {located : Located}

theorem postorder_eq (path : Path) (node : Node) :
    node.postorder path = postorderAll path 0 node.children ++ [⟨path, node⟩] := by
  cases node <;> rfl

theorem mem_postorderAll_iff : located ∈ postorderAll path place nodes ↔
    ∃ (further : Nat) (child : Node), nodes[further]? = some child ∧
      located ∈ child.postorder (path.child (place + further)) := by
  induction nodes generalizing place with
  | nil => simp [postorderAll]
  | cons node nodes ih =>
    rw [postorderAll, List.mem_append, ih]
    constructor
    · rintro (here | ⟨further, child, there, mem⟩)
      · exact ⟨0, node, rfl, here⟩
      · exact ⟨further + 1, child, there, by rwa [Nat.add_right_comm] at mem⟩
    · rintro ⟨further, child, there, mem⟩
      cases further with
      | zero =>
        obtain rfl := Option.some.inj there
        exact .inl mem
      | succ further => exact .inr ⟨further, child, there, by rwa [Nat.add_right_comm]⟩

/-- The post-order has the nodes at all places, at their paths. -/
theorem mem_postorder_iff : located ∈ node.postorder path ↔
    ∃ places, located.path = path.along places ∧ node.at? places = some located.node := by
  induction node using inductChildren generalizing path with
  | step node ih =>
    rw [postorder_eq, List.mem_append, mem_postorderAll_iff, List.mem_singleton]
    constructor
    · rintro (⟨place, child, there, mem⟩ | rfl)
      · obtain ⟨places, along, below⟩ := (ih child (List.mem_of_getElem? there)).1 mem
        rw [Nat.zero_add] at along
        exact ⟨place :: places, along, at?_cons_eq_some_iff.2 ⟨child, there, below⟩⟩
      · exact ⟨[], rfl, rfl⟩
    · rintro ⟨places, along, there⟩
      cases places with
      | nil =>
        obtain rfl := Option.some.inj there
        exact .inr (by cases located; exact congrArg (Located.mk · _) along)
      | cons place places =>
        obtain ⟨child, here, below⟩ := at?_cons_eq_some_iff.1 there
        have mem := List.mem_of_getElem? here
        refine .inl ⟨place, child, here, (ih child mem).2 ⟨places, ?_, below⟩⟩
        rwa [Nat.zero_add]

/-- What lies in children from a place on is found through one of them. -/
theorem exists_along_of_mem_postorderAll (h : located ∈ postorderAll path place nodes) :
    ∃ further places, located.path = path.along ((place + further) :: places) := by
  obtain ⟨further, child, -, mem⟩ := mem_postorderAll_iff.1 h
  obtain ⟨places, along, -⟩ := mem_postorder_iff.1 mem
  exact ⟨further, places, along⟩

theorem postorderAll_nodup
    (below : ∀ node ∈ nodes, ∀ path, ((node.postorder path).map (·.path)).Nodup) (path : Path)
    (place : Nat) : ((postorderAll path place nodes).map (·.path)).Nodup := by
  induction nodes generalizing place with
  | nil => exact List.nodup_nil
  | cons node nodes ih =>
    obtain ⟨here, later⟩ := List.forall_mem_cons.1 below
    rw [postorderAll, List.map_append, List.nodup_append]
    refine ⟨here _, ih later _, ?_⟩
    intro p first q second same
    obtain ⟨x, mem, rfl⟩ := List.mem_map.1 first
    obtain ⟨y, mem', rfl⟩ := List.mem_map.1 second
    obtain ⟨places, along, -⟩ := mem_postorder_iff.1 mem
    obtain ⟨further, places', along'⟩ := exists_along_of_mem_postorderAll mem'
    have steps : path.along (place :: places) = path.along ((place + 1 + further) :: places') :=
      along.symm.trans (same.trans along')
    have heads := (List.cons.inj (Path.along_inj.1 steps)).1
    omega

/-- No path comes twice. -/
theorem postorder_nodup (node : Node) (path : Path) :
    ((node.postorder path).map (·.path)).Nodup := by
  induction node using inductChildren generalizing path with
  | step node ih =>
    rw [postorder_eq, List.map_append, List.nodup_append]
    refine ⟨postorderAll_nodup (fun child mem path => ih child mem path) path 0, by simp, ?_⟩
    intro p first q second same
    obtain ⟨x, mem, rfl⟩ := List.mem_map.1 first
    obtain ⟨further, places, along⟩ := exists_along_of_mem_postorderAll mem
    obtain rfl : q = path := by simpa using second
    have steps : q.along ((0 + further) :: places) = q.along [] := along.symm.trans same
    cases Path.along_inj.1 steps

/-! ## Leaving -/

theorem ofTurn_leave_tourAll {select : Select}
    (below : ∀ node ∈ nodes, ∀ path, Event.ofTurn .leave (node.tour select path) =
      (node.postorder path).filter fun located => select located.node)
    (path : Path) (place : Nat) : Event.ofTurn .leave (tourAll select path place nodes) =
      (postorderAll path place nodes).filter fun located => select located.node := by
  induction nodes generalizing place with
  | nil => rfl
  | cons node nodes ih =>
    obtain ⟨here, later⟩ := List.forall_mem_cons.1 below
    rw [tourAll, postorderAll, Event.ofTurn_append, List.filter_append, here, ih later]

/-- A tour leaves the selected nodes in post-order. -/
theorem ofTurn_leave_tour (select : Select) (node : Node) (path : Path) :
    Event.ofTurn .leave (node.tour select path) =
      (node.postorder path).filter fun located => select located.node := by
  induction node using inductChildren generalizing path with
  | step node ih =>
    have all := ofTurn_leave_tourAll ih path 0
    rw [tour_eq, postorder_eq, Event.ofTurn_append, Event.ofTurn_append, List.filter_append, all,
      Event.ofTurn_event_of_ne Turn.noConfusion, Event.ofTurn_event, List.nil_append]

end Node

namespace Visitor

/-- The visitor that notes nodes when it leaves them. -/
def leaveNotes : Visitor (List Located) where
  enter _ _ noted := (.proceed, noted)
  leave path node noted := (.proceed, noted ++ [⟨path, node⟩])

theorem follow_leaveNotes (events : List Event) (noted : List Located) :
    leaveNotes.follow events noted = (.proceed, noted ++ Event.ofTurn .leave events) := by
  induction events generalizing noted with
  | nil => simp [follow, Event.ofTurn]
  | cons event events ih =>
    obtain ⟨turn, located⟩ := event
    cases turn with
    | enter => simpa [follow, call, leaveNotes, Event.ofTurn] using ih noted
    | leave => simpa [follow, call, leaveNotes, Event.ofTurn] using ih (noted ++ [located])

/-- A visit leaves the nodes of a tree in post-order. -/
theorem visit_leaveNotes (tree : Node) :
    leaveNotes.visit .all tree [] = (.proceed, tree.postorder .root) := by
  have all : ((tree.postorder .root).filter fun located => Select.all located.node) =
      tree.postorder .root := List.filter_eq_self.2 fun _ _ => rfl
  rw [visit_eq_follow, follow_leaveNotes, Node.ofTurn_leave_tour, all, List.nil_append]

end Visitor
end DocTree
