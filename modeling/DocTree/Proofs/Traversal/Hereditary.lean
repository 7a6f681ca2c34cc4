import DocTree.Proofs.Traversal.Stopping

/-!
# What passes hand on

A pass puts together nodes of the tree that it goes over and nodes that its rule answers with. A
property that children have from their parents, and nodes over such children too, is handed on: when
the tree and all nodes in answers have it, the rule is shown nodes with the property only, and so is
what comes of the pass.

## Main definitions

* `Node.Hereditary` — a property that goes up and down a tree.
* `Answer.nodes` — the nodes that an answer gives.
* `Rule.Answered`, `Rule.Shown` — the nodes that were answered, and those that were asked for.

## Main statements

* `Node.Hereditary.rewrite` — a pass hands a hereditary property on.
* `Node.Hereditary.shown`, `Node.Hereditary.apply`, `Node.Hereditary.applyAll` — what a rule is
  shown, and what comes of a pass, and of passes in a row.
-/

namespace DocTree

open Rule

/-! ## Definitions -/

/-- A property that the children of a node with it have, and so has the node over other children
with it. -/
structure Node.Hereditary (P : Node → Prop) : Prop where
  children : ∀ {node}, P node → ∀ child ∈ node.children, P child
  withChildren : ∀ {node children}, P node → (∀ child ∈ children, P child) →
    P (node.withChildren children)

/-- The nodes that an answer gives. -/
def Answer.nodes : Answer → List Node
  | .replace next => [next]
  | .replaceChildren children => children
  | .keep | .remove | .stop => []

namespace Rule

/-- All nodes that calls were answered with have a property. -/
def Answered (P : Node → Prop) (calls : List Call) : Prop :=
  ∀ call ∈ calls, ∀ next ∈ call.answer.nodes, P next

/-- A call was made for a node with a property as long as the calls before it were answered with
such nodes. -/
def Shown (P : Node → Prop) (calls : List Call) : Prop :=
  ∀ before call after, calls = before ++ call :: after → Answered P before → P call.node

variable {σ : Type} {P : Node → Prop}

/-- When all answers had the property, so has what became of a node. -/
def HandsOn (P : Node → Prop) (node : Node) :
    Except RewriteError Outcome × Pass (σ × List Call) → Prop
  | (result, pass) => Shown P pass.state.2 ∧ (Answered P pass.state.2 →
      ∀ outcome next, result = .ok outcome → outcome.node? node = some next → P next)

/-- When all answers had the property, so have the nodes that became of children. -/
def HandsOnAll (P : Node → Prop) :
    Except RewriteError (List Node × Bool) × Pass (σ × List Call) → Prop
  | (result, pass) => Shown P pass.state.2 ∧ (Answered P pass.state.2 →
      ∀ nodes changed, result = .ok (nodes, changed) → ∀ next ∈ nodes, P next)

theorem Answered.of_prefix {calls more : List Call} (h : Answered P more)
    (begins : calls <+: more) : Answered P calls :=
  fun call mem => h call (begins.subset mem)

theorem Shown.snoc {calls : List Call} {call : Call} (h : Shown P calls)
    (last : Answered P calls → P call.node) : Shown P (calls ++ [call]) := by
  intro before found after same answered
  rcases List.append_eq_append_iff.1 same with ⟨between, rfl, rest⟩ | ⟨between, rfl, rest⟩
  · -- The call is the last one.
    cases between with
    | nil =>
      obtain ⟨rfl, -⟩ := List.cons.inj rest
      exact last (by simpa using answered)
    | cons first between => simp at rest
  · cases between with
    | nil =>
      obtain ⟨rfl, -⟩ := List.cons.inj rest
      exact last (by simpa using answered)
    | cons first between =>
      obtain ⟨rfl, -⟩ := List.cons.inj rest
      exact h before _ between rfl answered

theorem account_begins_rewrite (rule : Rule σ) (path : Path) (node : Node)
    (pass : Pass (σ × List Call)) :
    pass.state.2 <+: (rewrite rule.recorded path node pass).2.state.2 :=
  rewrite_invariant (I := fun after : Pass (σ × List Call) => pass.state.2 <+: after.state.2)
    (fun path node rebuilt after _ begins =>
      begins.trans (account_begins_ask rule path node rebuilt after))
    node path pass List.prefix_rfl

/-- A pass over children hands on what the passes over single ones do. -/
theorem HandsOnAll.rewriteAll (rule : Rule σ) {nodes : List Node}
    (below : ∀ node ∈ nodes, ∀ path (pass : Pass (σ × List Call)), Shown P pass.state.2 →
      (Answered P pass.state.2 → P node) →
      HandsOn P node (rewrite rule.recorded path node pass))
    (path : Path) (place : Nat) {pass : Pass (σ × List Call)} (before : Shown P pass.state.2)
    (good : Answered P pass.state.2 → ∀ node ∈ nodes, P node) :
    HandsOnAll P (rewriteAll rule.recorded path place nodes pass) := by
  induction nodes generalizing place pass with
  | nil =>
    refine ⟨before, fun _ nodes changed same => ?_⟩
    cases same
    exact List.forall_mem_nil _
  | cons node nodes ih =>
    obtain ⟨here, later⟩ := List.forall_mem_cons.1 below
    have first := here (path.child place) pass before
      fun answered => good answered node List.mem_cons_self
    have begins := account_begins_rewrite rule (path.child place) node pass
    rw [Rule.rewriteAll]
    generalize rewrite rule.recorded (path.child place) node pass = made at first begins
    obtain ⟨_ | outcome, middle⟩ := made
    · refine ⟨first.1, fun _ _ _ same => ?_⟩
      cases same
    · have rest := ih later (place + 1) first.1 fun answered node mem =>
        good (answered.of_prefix begins) node (List.mem_cons_of_mem _ mem)
      have begins := account_begins_rewriteAll rule path (place + 1) nodes middle
      dsimp only
      generalize Rule.rewriteAll rule.recorded path (place + 1) nodes middle = made at rest begins
      obtain ⟨_ | ⟨more, changed⟩, last⟩ := made
      · refine ⟨rest.1, fun _ _ _ same => ?_⟩
        cases same
      · refine ⟨rest.1, fun answered gathered all same next mem => ?_⟩
        have became := first.2 (answered.of_prefix begins) outcome
        have others := rest.2 answered more changed rfl
        obtain same := Except.ok.inj same
        cases outcome with
        | unchanged =>
          obtain ⟨rfl, -⟩ := Prod.mk.inj same
          rcases List.mem_cons.1 mem with rfl | mem
          · exact became next rfl rfl
          · exact others next mem
        | rewritten found =>
          obtain ⟨rfl, -⟩ := Prod.mk.inj same
          rcases List.mem_cons.1 mem with rfl | mem
          · exact became next rfl rfl
          · exact others next mem
        | removed =>
          obtain ⟨rfl, -⟩ := Prod.mk.inj same
          exact others next mem

end Rule

namespace Node.Hereditary

variable {σ : Type} {P : Node → Prop} (h : Hereditary P)

include h

/-! ## Passes -/

/-- What a call puts in place has the property. -/
theorem outcome {call : Call} {node next : Node} {rebuilt : Option Node}
    (subject : rebuilt.getD node = call.node) (shown : P call.node)
    (answered : ∀ next ∈ call.answer.nodes, P next)
    (becomes : (call.outcome rebuilt).node? node = some next) : P next := by
  obtain ⟨path, asked, answer⟩ := call
  obtain rfl : rebuilt.getD node = asked := subject
  have kept : ∀ {next}, (Rule.kept rebuilt).node? node = some next → P next := by
    intro next becomes
    rw [node?_kept] at becomes
    exact Option.some.inj becomes ▸ shown
  cases answer with
  | keep => exact kept becomes
  | stop => exact kept becomes
  | replace found =>
    obtain rfl := Option.some.inj becomes
    exact answered _ List.mem_cons_self
  | remove => cases becomes
  | replaceChildren children =>
    obtain rfl := Option.some.inj becomes
    exact h.withChildren shown answered

theorem ask (rule : Rule σ) (path : Path) {node : Node} {rebuilt : Option Node}
    {pass : Pass (σ × List Call)} (before : Shown P pass.state.2)
    (subject : Answered P pass.state.2 → P (rebuilt.getD node)) :
    HandsOn P node (ask rule.recorded path node rebuilt pass) := by
  rw [ask_eq]
  dsimp only [recorded]
  generalize rule path (rebuilt.getD node) pass.state.1 = asked
  obtain ⟨answer, state⟩ := asked
  have shown : Shown P (pass.state.2 ++ [⟨path, rebuilt.getD node, answer⟩]) :=
    before.snoc subject
  dsimp only
  split
  · exact ⟨shown, nofun⟩
  · refine ⟨shown, fun answered outcome next same becomes => ?_⟩
    obtain rfl := Except.ok.inj same
    have earlier := subject (answered.of_prefix (List.prefix_append _ _))
    have now := answered ⟨path, rebuilt.getD node, answer⟩
      (List.mem_append_right _ List.mem_cons_self)
    exact h.outcome rfl earlier now becomes

/-- A pass hands a hereditary property on. -/
theorem rewrite (rule : Rule σ) (node : Node) : ∀ path (pass : Pass (σ × List Call)),
    Shown P pass.state.2 → (Answered P pass.state.2 → P node) →
      HandsOn P node (rewrite rule.recorded path node pass) := by
  induction node using Node.inductChildren with
  | step node ih =>
    intro path pass before good
    cases going : pass.stopped with
    | true =>
      rw [rewrite_of_stopped rule.recorded path node going]
      refine ⟨before, fun answered outcome next same becomes => ?_⟩
      obtain rfl := Except.ok.inj same
      exact Option.some.inj becomes ▸ good answered
    | false =>
      have below := HandsOnAll.rewriteAll rule ih path 0 before fun answered =>
        h.children (good answered)
      have begins := account_begins_rewriteAll rule path 0 node.children pass
      rw [rewrite_eq rule.recorded path node going]
      generalize Rule.rewriteAll rule.recorded path 0 node.children pass = made at below begins
      obtain ⟨_ | ⟨next, changed⟩, after⟩ := made
      · exact ⟨below.1, nofun⟩
      · have subject : Answered P after.state.2 →
            P ((if changed then some (node.withChildren next) else none).getD node) := by
          intro answered
          have parent := good (answered.of_prefix begins)
          cases changed with
          | true => exact h.withChildren parent (below.2 answered next true rfl)
          | false => exact parent
        dsimp only
        split
        · refine ⟨below.1, fun answered outcome found same becomes => ?_⟩
          obtain rfl := Except.ok.inj same
          rw [node?_kept] at becomes
          exact Option.some.inj becomes ▸ subject answered
        · exact h.ask rule path below.1 subject

/-- The pass of a recorded rule over a tree with the property. -/
theorem handsOn_root (rule : Rule σ) {tree : Node} (good : P tree) (state : σ) :
    HandsOn P tree (Rule.rewrite rule.recorded .root tree { state := (state, []) }) :=
  h.rewrite rule tree .root _ (fun before call after same => by simp at same) fun _ => good

/-- A rule is shown nodes with the property as long as it answers with such nodes. -/
theorem shown (rule : Rule σ) {tree : Node} (good : P tree) (state : σ) :
    Shown P (rule.calls tree state) := by
  have hands := h.handsOn_root rule good state
  rw [calls_eq]
  exact hands.1

/-- What comes of a pass has the property when all answers do. -/
theorem apply {rule : Rule σ} {tree : Node} (good : P tree) {state : σ}
    (answered : Answered P (rule.calls tree state)) {rewritten : Rewritten}
    (done : (rule.apply tree state).1 = .ok rewritten) : P rewritten.tree := by
  have hands := h.handsOn_root rule good state
  have same : (rule.apply tree state).1 = (rule.recorded.apply tree (state, [])).1 :=
    (congrArg Prod.fst (apply_recorded rule tree state)).symm
  rw [calls_eq] at answered
  rw [same, Rule.apply] at done
  generalize Rule.rewrite rule.recorded .root tree { state := (state, []) } = made
    at hands answered done
  obtain ⟨_ | outcome, pass⟩ := made
  · cases done
  · have became := hands.2 answered outcome
    cases outcome with
    | unchanged =>
      cases done
      exact good
    | rewritten next =>
      cases done
      exact became next rfl rfl
    | removed => cases done

end Node.Hereditary

/-! ## Passes in a row -/

namespace Pipeline

variable {σ : Type}

/-- The calls that passes in a row make. -/
def calls : List (Rule σ) → Node → σ → List Call
  | [], _, _ => []
  | rule :: rules, tree, state =>
    rule.calls tree state ++
      match rule.apply tree state with
      | (.error _, _) => []
      | (.ok result, state) => if result.stopped then [] else calls rules result.tree state

end Pipeline

/-- What comes of passes in a row has the property when all answers do. -/
theorem Node.Hereditary.applyAll {σ : Type} {P : Node → Prop} (h : Hereditary P)
    {rules : List (Rule σ)} {tree : Node} (good : P tree) {rewrites : Nat} {state : σ}
    (answered : Answered P (Pipeline.calls rules tree state)) {rewritten : Rewritten}
    (done : (Pipeline.applyAll rules tree rewrites state).1 = .ok rewritten) :
    P rewritten.tree := by
  induction rules generalizing tree rewrites state with
  | nil =>
    cases done
    exact good
  | cons rule rules ih =>
    have first : Answered P (rule.calls tree state) := answered.of_prefix (List.prefix_append _ _)
    have later : Answered P (match rule.apply tree state with
        | (.error _, _) => []
        | (.ok result, state) =>
          if result.stopped then [] else Pipeline.calls rules result.tree state) :=
      fun call mem => answered call (List.mem_append_right _ mem)
    have result : ∀ found, (rule.apply tree state).1 = .ok found → P found.tree :=
      fun _ => h.apply good first
    unfold Pipeline.applyAll at done
    generalize rule.apply tree state = made at later done result
    obtain ⟨_ | found, after⟩ := made
    · cases done
    · dsimp only at later done
      have found := result found rfl
      split at done
      · cases done
        exact found
      · rename_i going
        rw [if_neg going] at later
        exact ih found later done

end DocTree
