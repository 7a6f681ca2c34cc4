import DocTree.Proofs.Traversal.Order
import DocTree.Proofs.Traversal.Rebuild

/-!
# Accounts of rebuildings

Plain rewriting calls its rule for nodes in post-order, each once and at its path. The rule is shown
the node over what the earlier calls put in the places of its children, never a node that it has put
in place itself. A call that fails is the last one.

## Main definitions

* `placedBelow` — what calls put in the places of the children of a node.
* `Rebuilding.Accounted`, `Rebuilding.Covers`, `Rebuilding.Seen` — which call fails, which nodes are
  called for, and over which children.
* `Rebuilding.Faithful` — the account of a rebuilding fits the nodes that were rebuilt.

## Main statements

* `Rebuilding.Accounted.error_iff` — a rebuilding fails with the first call that fails.
* `Rebuilding.Faithful.cons`, `Rule.faithful_consult` — accounts of nodes in a row, and of a node
  after its children.
* `Rule.faithful_rebuild` — plain rewriting calls its rule as it should.
-/

namespace DocTree

/-! ## Parents -/

namespace Path

variable {path : Path} {place : Nat} {places : List Nat}

theorem parent?_along_cons : (path.along (place :: places)).parent? =
    some (path.along (place :: places).dropLast) := by
  have split := List.dropLast_concat_getLast (List.cons_ne_nil place places)
  rw [parent?_eq_some_iff]
  exact ⟨_, by rw [child_along, split]⟩

/-- A path below one child is not the parent of a path below another. -/
theorem parent?_along_ne {other : Nat} {others : List Nat} (h : place ≠ other) :
    (path.along (place :: places)).parent? ≠ some (path.along (other :: others)) := by
  rw [parent?_along_cons]
  intro same
  have steps := along_inj.1 (Option.some.inj same)
  cases places with
  | nil => cases steps
  | cons next places => exact h (List.cons.inj steps).1

/-- The parent of a path is not at or below it. -/
theorem parent?_ne_along : path.parent? ≠ some (path.along places) := by
  intro same
  obtain ⟨last, same⟩ := parent?_eq_some_iff.1 same
  rw [child_along] at same
  have steps := along_inj.1 (show path.along [] = _ from same)
  simp at steps

/-- No path below a child has the parent of the path. -/
theorem parent?_along_ne_parent? {parent : Path} (h : path.parent? = some parent) :
    (path.along (place :: places)).parent? ≠ some parent := by
  obtain ⟨last, rfl⟩ := parent?_eq_some_iff.1 h
  rw [← along_cons, parent?_along_cons]
  intro same
  cases along_inj.1 (show parent.along _ = parent.along [] from Option.some.inj same)

end Path

/-! ## What calls put in place -/

theorem Call.placed_of_result {call : Call} {nodes : List Node} (h : call.result = .ok nodes) :
    call.placed = nodes := by
  unfold result at h
  split at h
  · cases h
  · exact Except.ok.inj h

/-- The nodes that calls put in the places of the children of the node at a path. -/
def placedBelow (calls : List Call) (path : Path) : List Node :=
  (calls.filter fun call => call.path.parent? = some path).flatMap Call.placed

theorem placedBelow_append (calls later : List Call) (path : Path) :
    placedBelow (calls ++ later) path = placedBelow calls path ++ placedBelow later path := by
  simp [placedBelow]

theorem placedBelow_eq_nil {calls : List Call} {path : Path}
    (h : ∀ call ∈ calls, call.path.parent? ≠ some path) : placedBelow calls path = [] := by
  rw [placedBelow, List.filter_eq_nil_iff.2 fun call mem => by simpa using h call mem]
  rfl

theorem placedBelow_singleton {call : Call} {path : Path} (h : call.path.parent? = some path) :
    placedBelow [call] path = call.placed := by
  simp [placedBelow, h]

/-! ## Accounts of rebuildings -/

namespace Rebuilding

variable {σ : Type} {first : Rebuilding σ} {next : List Node → σ → Rebuilding σ}

/-- Only the last call fails, and the rebuilding with it. -/
structure Accounted (rebuilding : Rebuilding σ) : Prop where
  fine : ∀ nodes, rebuilding.result = .ok nodes → ∀ call ∈ rebuilding.calls, call.failure? = none
  failed : ∀ e, rebuilding.result = .error e → ∃ before last,
    rebuilding.calls = before ++ [last] ∧ last.failure? = some e ∧
      ∀ call ∈ before, call.failure? = none

/-- The calls are made for the nodes in order, and without a failure for all of them. -/
structure Covers (rebuilding : Rebuilding σ) (located : List Located) : Prop where
  order : rebuilding.calls.map (·.path) <+: located.map (·.path)
  complete : ∀ nodes, rebuilding.result = .ok nodes →
    rebuilding.calls.map (·.path) = located.map (·.path)

/-- The calls are made for nodes over what other calls put in the places of their children. -/
def Seen (located : List Located) (calls : List Call) : Prop :=
  ∀ call ∈ calls, ∃ node, ⟨call.path, node⟩ ∈ located ∧
    call.node = node.withChildren (placedBelow calls call.path)

/-- The account of a rebuilding fits the nodes that were rebuilt, and what became of them is what
was put in place of those with a parent. -/
structure Faithful (rebuilding : Rebuilding σ) (located : List Located) (parent? : Option Path) :
    Prop where
  accounted : rebuilding.Accounted
  covers : rebuilding.Covers located
  seen : Seen located rebuilding.calls
  placed : ∀ nodes, rebuilding.result = .ok nodes → ∀ parent, parent? = some parent →
    placedBelow rebuilding.calls parent = nodes

theorem Accounted.andThen (h : first.Accounted)
    (later : ∀ nodes, first.result = .ok nodes → (next nodes first.state).Accounted) :
    (first.andThen next).Accounted := by
  cases made : first.result with
  | error e => rwa [andThen_of_error made]
  | ok nodes =>
    obtain ⟨fine, failed⟩ := later nodes made
    rw [andThen_of_ok made]
    refine ⟨fun all done call mem => ?_, fun e bad => ?_⟩
    · exact (List.mem_append.1 mem).elim (h.fine nodes made call) (fine all done call)
    · obtain ⟨before, last, split, fails, fineBefore⟩ := failed e bad
      refine ⟨first.calls ++ before, last, by rw [split, List.append_assoc], fails, ?_⟩
      exact fun call mem => (List.mem_append.1 mem).elim (h.fine nodes made call) (fineBefore call)

/-- A rebuilding fails with the first call that fails. -/
theorem Accounted.error_iff (h : first.Accounted) {e : RewriteError} :
    first.result = .error e ↔ first.calls.findSome? Call.failure? = some e := by
  have finds : ∀ e, first.result = .error e → first.calls.findSome? Call.failure? = some e := by
    intro e bad
    obtain ⟨before, last, split, fails, fine⟩ := h.failed e bad
    rw [split, List.findSome?_append, List.findSome?_eq_none_iff.2 fine]
    simp [fails]
  refine ⟨finds e, fun found => ?_⟩
  cases made : first.result with
  | error e' => rw [← Option.some.inj ((finds e' made).symm.trans found)]
  | ok nodes =>
    rw [List.findSome?_eq_none_iff.2 (h.fine nodes made)] at found
    cases found

/-- A call that fails is the last one. -/
theorem Accounted.fine_dropLast (h : first.Accounted) :
    ∀ call ∈ first.calls.dropLast, call.failure? = none := by
  cases made : first.result with
  | error e =>
    obtain ⟨before, last, split, -, fine⟩ := h.failed e made
    rwa [split, List.dropLast_concat]
  | ok nodes => exact fun call mem => h.fine nodes made call (List.dropLast_subset _ mem)

theorem Covers.andThen {here there : List Located} (h : first.Covers here)
    (later : ∀ nodes, first.result = .ok nodes → (next nodes first.state).Covers there) :
    (first.andThen next).Covers (here ++ there) where
  order := by
    rw [List.map_append]
    cases made : first.result with
    | error e =>
      rw [andThen_of_error made]
      exact h.order.trans (List.prefix_append _ _)
    | ok nodes =>
      rw [andThen_of_ok made, List.map_append, h.complete nodes made]
      exact (List.prefix_append_right_inj _).2 (later nodes made).order
  complete all done := by
    obtain ⟨nodes, made, madeAll⟩ := andThen_eq_ok_iff.1 done
    rw [andThen_of_ok made, List.map_append, List.map_append, h.complete nodes made,
      (later nodes made).complete all madeAll]

theorem Seen.append {here there : List Located} {calls later : List Call} (h : Seen here calls)
    (hlater : Seen there later)
    (apart : ∀ x ∈ here, ∀ y ∈ there, x.path.parent? ≠ some y.path ∧ y.path.parent? ≠ some x.path) :
    Seen (here ++ there) (calls ++ later) := by
  intro call mem
  rw [placedBelow_append]
  rcases List.mem_append.1 mem with mem | mem
  · obtain ⟨node, there, same⟩ := h call mem
    have none : placedBelow later call.path = [] := by
      refine placedBelow_eq_nil fun other mem => ?_
      obtain ⟨node', there', -⟩ := hlater other mem
      exact (apart _ there _ there').2
    exact ⟨node, List.mem_append_left _ there, by rw [none, List.append_nil, same]⟩
  · obtain ⟨node, there, same⟩ := hlater call mem
    have none : placedBelow calls call.path = [] := by
      refine placedBelow_eq_nil fun other mem => ?_
      obtain ⟨node', there', -⟩ := h other mem
      exact (apart _ there' _ there).1
    exact ⟨node, List.mem_append_right _ there, by rw [none, List.nil_append, same]⟩

/-- The call for a node comes after the calls for what is below it. -/
theorem Seen.snoc {below : List Located} {calls : List Call} (h : Seen below calls) {call : Call}
    {node : Node} (along : ∀ x ∈ below, ∃ places, x.path = call.path.along places)
    (subject : call.node = node.withChildren (placedBelow calls call.path)) :
    Seen (below ++ [⟨call.path, node⟩]) (calls ++ [call]) := by
  have none : ∀ places, placedBelow [call] (call.path.along places) = [] :=
    fun places => placedBelow_eq_nil (List.forall_mem_singleton.2 Path.parent?_ne_along)
  intro other mem
  rw [placedBelow_append]
  rcases List.mem_append.1 mem with mem | mem
  · obtain ⟨found, there, same⟩ := h other mem
    obtain ⟨places, path⟩ : ∃ places, other.path = call.path.along places := along _ there
    exact ⟨found, List.mem_append_left _ there, by rw [path, none, List.append_nil, ← path, same]⟩
  · obtain rfl := List.mem_singleton.1 mem
    have nothing : placedBelow [other] other.path = [] := none []
    exact ⟨node, List.mem_append_right _ List.mem_cons_self,
      by rw [nothing, List.append_nil, subject]⟩

/-! ## Steps -/

theorem Seen.append_left {here there : List Located} {calls : List Call} (h : Seen here calls) :
    Seen (here ++ there) calls := by
  intro call mem
  obtain ⟨node, there, same⟩ := h call mem
  exact ⟨node, List.mem_append_left _ there, same⟩

theorem Accounted.prepend {later : Rebuilding σ} (h : later.Accounted) (nodes : List Node) :
    (later.prepend nodes).Accounted := by
  refine ⟨fun all done => ?_, fun e bad => h.failed e (prepend_eq_error_iff.1 bad)⟩
  obtain ⟨rest, made, -⟩ := prepend_eq_ok_iff.1 done
  exact h.fine rest made

theorem Covers.prepend {later : Rebuilding σ} {located : List Located} (h : later.Covers located)
    (nodes : List Node) : (later.prepend nodes).Covers located := by
  refine ⟨h.order, fun all done => ?_⟩
  obtain ⟨rest, made, -⟩ := prepend_eq_ok_iff.1 done
  exact h.complete rest made

/-- The account of one node is followed by that of the nodes after it. -/
theorem Faithful.cons {here there : List Located} {parent? : Option Path}
    {next : σ → Rebuilding σ} (h : first.Faithful here parent?)
    (later : ∀ state, (next state).Faithful there parent?)
    (apart : ∀ x ∈ here, ∀ y ∈ there, x.path.parent? ≠ some y.path ∧ y.path.parent? ≠ some x.path) :
    (first.andThen fun nodes state => (next state).prepend nodes).Faithful (here ++ there)
      parent? where
  accounted := h.accounted.andThen fun nodes _ => (later _).accounted.prepend nodes
  covers := h.covers.andThen fun nodes _ => (later _).covers.prepend nodes
  seen := by
    cases made : first.result with
    | error e =>
      rw [andThen_of_error made]
      exact h.seen.append_left
    | ok nodes =>
      rw [andThen_of_ok made]
      exact h.seen.append (later _).seen apart
  placed all done parent same := by
    obtain ⟨nodes, made, madeAll⟩ := andThen_eq_ok_iff.1 done
    obtain ⟨rest, madeRest, rfl⟩ := prepend_eq_ok_iff.1 madeAll
    rw [andThen_of_ok made, placedBelow_append, h.placed nodes made parent same]
    exact congrArg _ ((later _).placed rest madeRest parent same)

end Rebuilding

namespace Rule

open Rebuilding

variable {σ : Type}

theorem accounted_consult (rule : Rule σ) (path : Path) (node : Node) (state : σ) :
    (consult rule path node state).Accounted := by
  unfold consult
  generalize rule path node state = asked
  obtain ⟨answer, after⟩ := asked
  dsimp only [Call.result]
  cases failed : (Call.mk path node answer).failure? with
  | some e =>
    refine ⟨nofun, fun e' bad => ⟨[], _, rfl, ?_, List.forall_mem_nil _⟩⟩
    cases bad
    exact failed
  | none => exact ⟨fun nodes _ => List.forall_mem_singleton.2 failed, nofun⟩

/-- The account of the children of a node is followed by the call for the node. -/
theorem faithful_consult (rule : Rule σ) {path : Path} {node : Node} {children : Rebuilding σ}
    (h : children.Faithful (Node.postorderAll path 0 node.children) (some path)) :
    (children.andThen fun next => consult rule path (node.withChildren next)).Faithful
      (node.postorder path) path.parent? := by
  rw [Node.postorder_eq]
  have below : ∀ x ∈ Node.postorderAll path 0 node.children,
      ∃ place places, x.path = path.along (place :: places) := by
    intro x mem
    obtain ⟨further, places, along⟩ := Node.exists_along_of_mem_postorderAll mem
    exact ⟨_, places, along⟩
  refine ⟨h.accounted.andThen fun next _ => accounted_consult rule path _ _,
    h.covers.andThen fun next _ => ⟨List.prefix_rfl, fun _ _ => rfl⟩, ?_, ?_⟩
  · cases made : children.result with
    | error e =>
      rw [andThen_of_error made]
      exact h.seen.append_left
    | ok next =>
      rw [andThen_of_ok made]
      have along : ∀ x ∈ Node.postorderAll path 0 node.children,
          ∃ places, x.path = path.along places := by
        intro x mem
        obtain ⟨place, places, along⟩ := below x mem
        exact ⟨_, along⟩
      exact h.seen.snoc along (congrArg (node.withChildren ·) (h.placed next made path rfl).symm)
  · intro nodes done parent same
    obtain ⟨next, made, placed⟩ := andThen_eq_ok_iff.1 done
    have nothing : placedBelow children.calls parent = [] := by
      refine placedBelow_eq_nil fun call mem => ?_
      obtain ⟨found, there, -⟩ := h.seen call mem
      obtain ⟨place, places, along⟩ : ∃ place places, call.path = _ := below _ there
      exact along ▸ Path.parent?_along_ne_parent? same
    rw [andThen_of_ok made, placedBelow_append, nothing, List.nil_append]
    exact (placedBelow_singleton same).trans (Call.placed_of_result placed)

theorem faithful_rebuildAll {rule : Rule σ} {nodes : List Node}
    (below : ∀ node ∈ nodes, ∀ path state,
      (rebuild rule path node state).Faithful (node.postorder path) path.parent?)
    (path : Path) (place : Nat) (state : σ) :
    (rebuildAll rule path place nodes state).Faithful (Node.postorderAll path place nodes)
      (some path) := by
  induction nodes generalizing place state with
  | nil =>
    refine ⟨⟨fun _ _ => List.forall_mem_nil _, nofun⟩, ⟨List.prefix_rfl, fun _ _ => rfl⟩,
      List.forall_mem_nil _, fun nodes done parent _ => ?_⟩
    cases done
    rfl
  | cons node nodes ih =>
    obtain ⟨here, later⟩ := List.forall_mem_cons.1 below
    refine (here (path.child place) state).cons (fun state => ih later (place + 1) state) ?_
    intro x left y right
    obtain ⟨places, along, -⟩ := Node.mem_postorder_iff.1 left
    obtain ⟨further, places', along'⟩ := Node.exists_along_of_mem_postorderAll right
    rw [along, along', ← Path.along_cons]
    exact ⟨Path.parent?_along_ne (by omega), Path.parent?_along_ne (by omega)⟩

/-- Plain rewriting calls its rule as it should. -/
theorem faithful_rebuild (rule : Rule σ) (node : Node) (path : Path) (state : σ) :
    (rebuild rule path node state).Faithful (node.postorder path) path.parent? := by
  induction node using Node.inductChildren generalizing path state with
  | step node ih =>
    rw [rebuild_eq]
    exact faithful_consult rule (faithful_rebuildAll ih path 0 state)

end Rule
end DocTree
