import DocTree.Proofs.Node.Places
import DocTree.Traversal.Rewrite

/-!
# Calls of a rule

A pass over a tree calls its rule again and again. The recorded rule keeps an account of its calls:
where it was asked, for which node, and what it answered. It does not change what a pass does.

## Main definitions

* `Outcome.node?`, `Node.withChildren` — what takes the place of a node, and a node over children.
* `Call`, `Rule.recorded`, `Rule.calls` — the calls that a pass makes.
* `Call.failure?`, `Call.placed` — why a call fails, and what a call puts in the place of a node.

## Main statements

* `Rule.ask_eq` — what one call does to a pass.
* `Rule.rewrite_eq` — a pass rewrites the children of a node, and then asks for the node.
* `Rule.rewrite_meets` — what each call keeps is kept by a pass.
* `Rule.apply_recorded` — recording changes nothing.
* `Rule.Told.rewrite` — a pass is ended by an answer that says so, and counts those that rewrite.
* `Rule.rewrite_root_ne_removed` — the root is never removed.
-/

namespace DocTree

/-! ## Outcomes -/

/-- The node that a rewriting puts in the place of a node. -/
def Outcome.node? (node : Node) : Outcome → Option Node
  | .unchanged => some node
  | .rewritten next => some next
  | .removed => none

theorem Rule.node?_kept (node : Node) (rebuilt : Option Node) :
    (kept rebuilt).node? node = some (rebuilt.getD node) := by
  cases rebuilt <;> rfl

theorem Rule.rewrite_of_stopped {σ : Type} (rule : Rule σ) (path : Path) (node : Node)
    {pass : Pass σ} (h : pass.stopped = true) :
    rewrite rule path node pass = (.ok .unchanged, pass) := by
  cases node <;> simp [rewrite, h]

theorem Rule.rewriteAll_of_stopped {σ : Type} (rule : Rule σ) (path : Path) (place : Nat)
    (nodes : List Node) {pass : Pass σ} (h : pass.stopped = true) :
    rewriteAll rule path place nodes pass = (.ok (nodes, false), pass) := by
  induction nodes generalizing place with
  | nil => rfl
  | cons node nodes ih => simp only [rewriteAll, rewrite_of_stopped rule _ node h, ih, gather]

/-! ## Calls -/

namespace Answer

/-- Whether an answer asks for a change. -/
def rewrites : Answer → Bool
  | .keep | .stop => false
  | .replace _ | .remove | .replaceChildren _ => true

/-- Whether an answer ends the pass. -/
def stops : Answer → Bool
  | .stop => true
  | .keep | .replace _ | .remove | .replaceChildren _ => false

@[simp] theorem stops_eq_false_iff {answer : Answer} : answer.stops = false ↔ answer ≠ .stop := by
  cases answer <;> simp [stops]

end Answer

/-- The node over other children, when it is a container. -/
def Node.withChildren (children : List Node) : Node → Node
  | .container head _ => .container head children
  | .leaf head value => .leaf head value
  | .empty head => .empty head

theorem Node.head_withChildren (children : List Node) (node : Node) :
    (node.withChildren children).head = node.head := by
  cases node <;> rfl

/-- The heads of a tree are changed in the children first, and then in the node over them. -/
theorem Node.mapHead_withChildren_map (f : Head → Head) (node : Node) :
    (node.withChildren (node.children.map (mapHeads f))).mapHead f = node.mapHeads f := by
  cases node <;> simp [withChildren, children, mapHead, mapHeads]

/-- A call of a rule: where it was asked, for which node, and what it answered. -/
structure Call where
  path : Path
  node : Node
  answer : Answer

namespace Call

/-- Why a call fails: the root cannot be removed, and only containers get children. -/
def failure? (call : Call) : Option RewriteError :=
  match call.answer with
  | .remove => if call.path.isRoot then some (.rootRemoved call.node.typeName) else none
  | .replaceChildren _ =>
    if call.node.contentClass = .container then none
    else some (.notContainer call.node.typeName call.path)
  | .keep | .stop | .replace _ => none

/-- The nodes that a call puts in the place of its node. -/
def placed (call : Call) : List Node :=
  match call.answer with
  | .keep | .stop => [call.node]
  | .replace next => [next]
  | .remove => []
  | .replaceChildren children => [call.node.withChildren children]

/-- What a call comes to: its failure, or the nodes it puts in place. -/
def result (call : Call) : Except RewriteError (List Node) :=
  match call.failure? with
  | some e => .error e
  | none => .ok call.placed

/-- What becomes of the node of a call, by its copy over changed children. -/
def outcome (call : Call) (rebuilt : Option Node) : Outcome :=
  match call.answer with
  | .keep | .stop => Rule.kept rebuilt
  | .replace next => .rewritten next
  | .remove => .removed
  | .replaceChildren children => .rewritten (call.node.withChildren children)

end Call

namespace Rule

variable {σ τ : Type}

/-- The rule that keeps an account of its calls beside its state. -/
def recorded (rule : Rule σ) : Rule (σ × List Call) := fun path node state =>
  let (answer, next) := rule path node state.1
  (answer, next, state.2 ++ [⟨path, node, answer⟩])

/-- The calls that a pass over a tree makes, in order. -/
def calls (rule : Rule σ) (tree : Node) (state : σ) : List Call :=
  (rule.recorded.apply tree (state, [])).2.2

/-! ## Passes -/

/-- One call of a rule: it fails, or it decides what becomes of the node. -/
theorem ask_eq (rule : Rule σ) (path : Path) (node : Node) (rebuilt : Option Node) (pass : Pass σ) :
    ask rule path node rebuilt pass =
      let subject := rebuilt.getD node
      let (answer, state) := rule path subject pass.state
      let call : Call := ⟨path, subject, answer⟩
      match call.failure? with
      | some e => (.error e, { pass with state })
      | none => (.ok (call.outcome rebuilt),
          ⟨state, pass.stopped || answer.stops, pass.rewrites + answer.rewrites.toNat⟩) := by
  unfold ask
  dsimp only
  generalize rule path (rebuilt.getD node) pass.state = asked
  obtain ⟨answer, state⟩ := asked
  cases answer with
  | keep => simp [Call.failure?, Call.outcome, Answer.stops, Answer.rewrites]
  | replace next => simp [Call.failure?, Call.outcome, Answer.stops, Answer.rewrites, counted]
  | remove =>
    cases root : path.isRoot <;>
      simp [Call.failure?, Call.outcome, Answer.stops, Answer.rewrites, counted, root]
  | replaceChildren children =>
    cases rebuilt.getD node <;>
      simp [Call.failure?, Call.outcome, Answer.stops, Answer.rewrites, counted,
        Node.contentClass, Node.withChildren]
  | stop => simp [Call.failure?, Call.outcome, Answer.stops, Answer.rewrites]

/-- A pass that goes on rewrites the children of a node, and asks the rule for the node over what
became of them. -/
theorem rewrite_eq (rule : Rule σ) (path : Path) (node : Node) {pass : Pass σ}
    (going : pass.stopped = false) :
    rewrite rule path node pass =
      match rewriteAll rule path 0 node.children pass with
      | (.error e, pass) => (.error e, pass)
      | (.ok (next, changed), pass) =>
        let rebuilt := if changed then some (node.withChildren next) else none
        if pass.stopped then (.ok (kept rebuilt), pass) else ask rule path node rebuilt pass := by
  have goes : ¬pass.stopped = true := Bool.eq_false_iff.1 going
  cases node with
  | container head children =>
    rw [rewrite, if_neg goes]
    rfl
  | leaf head value =>
    rw [rewrite, if_neg goes]
    exact (if_neg goes).symm
  | empty head =>
    rw [rewrite, if_neg goes]
    exact (if_neg goes).symm

/-- A node over its children is rebuilt when these have changed, and otherwise as it was. -/
theorem getD_rebuilt {node : Node} {next : List Node} {changed : Bool}
    (h : changed = false → next = node.children) :
    (if changed = true then some (node.withChildren next) else none).getD node =
      node.withChildren next := by
  cases changed with
  | true => rfl
  | false =>
    obtain rfl := h rfl
    cases node <;> rfl

/-- The pass after a step that came to something is as the one predicate says, and the pass after a
step that failed is as the other one says. -/
def Meets {α : Type} (done : Pass σ → Prop) (failed : RewriteError → Pass σ → Prop) :
    Except RewriteError α × Pass σ → Prop
  | (.ok _, pass) => done pass
  | (.error e, pass) => failed e pass

theorem meets_same_iff {α : Type} {I : Pass σ → Prop} {made : Except RewriteError α × Pass σ} :
    Meets I (fun _ => I) made ↔ I made.2 := by
  obtain ⟨_ | _, pass⟩ := made <;> rfl

variable {rule : Rule σ} {done I : Pass σ → Prop} {failed : RewriteError → Pass σ → Prop}

/-- What each call keeps as long as none fails is kept by the rewriting of children. -/
theorem rewriteAll_meets {nodes : List Node}
    (below : ∀ node ∈ nodes, ∀ path pass, done pass →
      Meets done failed (rewrite rule path node pass))
    (path : Path) (place : Nat) {pass : Pass σ} (h : done pass) :
    Meets done failed (rewriteAll rule path place nodes pass) := by
  induction nodes generalizing place pass with
  | nil => exact h
  | cons node nodes ih =>
    obtain ⟨here, later⟩ := List.forall_mem_cons.1 below
    have first := here (path.child place) pass h
    rw [rewriteAll]
    generalize rewrite rule (path.child place) node pass = made at first
    obtain ⟨_ | outcome, after⟩ := made
    · exact first
    · have rest := ih later (place + 1) (show done after from first)
      dsimp only
      generalize rewriteAll rule path (place + 1) nodes after = made at rest
      obtain ⟨_ | gathered, last⟩ := made <;> exact rest

/-- What each call keeps as long as none fails is kept by a pass, and what the failing call leaves
is what is left. -/
theorem rewrite_meets
    (step : ∀ path node rebuilt pass, pass.stopped = false → done pass →
      Meets done failed (ask rule path node rebuilt pass))
    (node : Node) (path : Path) (pass : Pass σ) (h : done pass) :
    Meets done failed (rewrite rule path node pass) := by
  induction node using Node.inductChildren generalizing path pass with
  | step node ih =>
    cases going : pass.stopped with
    | true => rwa [rewrite_of_stopped rule path node going]
    | false =>
      have below := rewriteAll_meets ih path 0 h
      rw [rewrite_eq rule path node going]
      generalize rewriteAll rule path 0 node.children pass = made at below
      obtain ⟨_ | gathered, after⟩ := made
      · exact below
      · dsimp only
        split
        · exact below
        · exact step _ _ _ _ (Bool.eq_false_iff.2 ‹_›) below

/-- What each call keeps, failing or not, is kept by a pass. -/
theorem rewrite_invariant
    (step : ∀ path node rebuilt pass, pass.stopped = false → I pass →
      I (ask rule path node rebuilt pass).2)
    (node : Node) (path : Path) (pass : Pass σ) (h : I pass) :
    I (rewrite rule path node pass).2 :=
  meets_same_iff.1 <| rewrite_meets
    (fun path node rebuilt pass going h => meets_same_iff.2 (step path node rebuilt pass going h))
    node path pass h

/-- What each call keeps, failing or not, is kept by the rewriting of children. -/
theorem rewriteAll_invariant
    (step : ∀ path node rebuilt pass, pass.stopped = false → I pass →
      I (ask rule path node rebuilt pass).2)
    (nodes : List Node) (path : Path) (place : Nat) (pass : Pass σ) (h : I pass) :
    I (rewriteAll rule path place nodes pass).2 :=
  meets_same_iff.1 <| rewriteAll_meets
    (fun node _ path pass h => meets_same_iff.2 (rewrite_invariant step node path pass h)) path
    place h

end Rule

/-! ## Recording -/

/-- The pass with its state seen through a function. -/
def Pass.map {σ τ : Type} (f : τ → σ) (pass : Pass τ) : Pass σ :=
  ⟨f pass.state, pass.stopped, pass.rewrites⟩

namespace Rule

variable {σ τ : Type} {rule : Rule σ} {other : Rule τ} {f : τ → σ}

/-- The other rule answers the same, and its state seen through a function is that of the rule. -/
def Shadows (other : Rule τ) (f : τ → σ) (rule : Rule σ) : Prop :=
  ∀ path node state, rule path node (f state) = (other path node state).map id f

theorem Shadows.ask (h : other.Shadows f rule) (path : Path) (node : Node) (rebuilt : Option Node)
    (pass : Pass τ) :
    ask rule path node rebuilt (pass.map f) =
      (ask other path node rebuilt pass).map id (.map f) := by
  rw [ask_eq, ask_eq]
  dsimp only [Pass.map]
  rw [h]
  rcases other path (rebuilt.getD node) pass.state with ⟨answer, state⟩
  dsimp only [Prod.map, id]
  cases (Call.mk path (rebuilt.getD node) answer).failure? <;> rfl

theorem Shadows.rewriteAll {nodes : List Node}
    (below : ∀ node ∈ nodes, ∀ path pass,
      rewrite rule path node (pass.map f) = (rewrite other path node pass).map id (.map f))
    (path : Path) (place : Nat) (pass : Pass τ) :
    rewriteAll rule path place nodes (pass.map f) =
      (rewriteAll other path place nodes pass).map id (.map f) := by
  induction nodes generalizing place pass with
  | nil => rfl
  | cons node nodes ih =>
    obtain ⟨here, later⟩ := List.forall_mem_cons.1 below
    rw [Rule.rewriteAll, Rule.rewriteAll, here]
    rcases rewrite other (path.child place) node pass with ⟨_ | outcome, after⟩
    · rfl
    · dsimp only [Prod.map, id]
      rw [ih later]
      rcases Rule.rewriteAll other path (place + 1) nodes after with ⟨_ | gathered, last⟩ <;> rfl

/-- A pass does not depend on what rides along in the state. -/
theorem Shadows.rewrite (h : other.Shadows f rule) (node : Node) (path : Path) (pass : Pass τ) :
    rewrite rule path node (pass.map f) = (rewrite other path node pass).map id (.map f) := by
  induction node using Node.inductChildren generalizing path pass with
  | step node ih =>
    cases going : pass.stopped with
    | true =>
      rw [rewrite_of_stopped other path node going, rewrite_of_stopped rule path node going]
      rfl
    | false =>
      rw [rewrite_eq other path node going, rewrite_eq rule path node going,
        Shadows.rewriteAll ih]
      rcases Rule.rewriteAll other path 0 node.children pass with ⟨_ | ⟨next, changed⟩, after⟩
      · rfl
      · dsimp only [Prod.map, id]
        rw [h.ask]
        change (if after.stopped = true then _ else _) = _
        split <;> rfl

/-- A pass under a rule that answers the same. -/
theorem Shadows.apply (h : other.Shadows f rule) (tree : Node) (state : τ) :
    rule.apply tree (f state) = (other.apply tree state).map id f := by
  have same := h.rewrite tree .root { state }
  unfold Rule.apply
  rw [show ({ state := f state } : Pass σ) = .map f { state } from rfl, same]
  rcases Rule.rewrite other .root tree { state } with ⟨_ | outcome, after⟩
  · rfl
  · cases outcome <;> rfl

/-- Recording changes nothing. -/
theorem apply_recorded (rule : Rule σ) (tree : Node) (state : σ) :
    rule.recorded.apply tree (state, []) =
      ((rule.apply tree state).1, (rule.apply tree state).2, rule.calls tree state) := by
  have shadows : rule.recorded.Shadows Prod.fst rule := fun _ _ _ => rfl
  rw [shadows.apply tree (state, [])]
  rfl

/-! ## Accounts -/

/-- The account of a pass tells whether it was ended, and without failures how often it rewrote. -/
structure Told (pass : Pass (σ × List Call)) : Prop where
  stopped : pass.stopped = pass.state.2.any (·.answer.stops)
  rewrites : (∀ call ∈ pass.state.2, call.failure? = none) →
    pass.rewrites = pass.state.2.countP (·.answer.rewrites)

theorem Told.ask {pass : Pass (σ × List Call)} (told : Told pass) (rule : Rule σ) (path : Path)
    (node : Node) (rebuilt : Option Node) : Told (ask rule.recorded path node rebuilt pass).2 := by
  rw [ask_eq]
  dsimp only [recorded]
  generalize rule path (rebuilt.getD node) pass.state.1 = asked
  obtain ⟨answer, state⟩ := asked
  cases failed : (Call.mk path (rebuilt.getD node) answer).failure? with
  | some e =>
    refine ⟨?_, fun fine => ?_⟩
    · have goes : answer.stops = false := by cases answer <;> simp_all [Call.failure?, Answer.stops]
      simp [told.stopped, goes]
    · have none := fine _ (List.mem_append_right _ List.mem_cons_self)
      rw [failed] at none
      cases none
  | none =>
    refine ⟨by simp [told.stopped], fun fine => ?_⟩
    have before := told.rewrites fun call mem => fine call (List.mem_append_left _ mem)
    cases changes : answer.rewrites <;> simp [before, changes]

/-- The account of a pass from a state, begun empty. -/
theorem Told.rewrite (rule : Rule σ) (tree : Node) (state : σ) :
    Told (rewrite rule.recorded .root tree { state := (state, []) }).2 :=
  rewrite_invariant (fun path node rebuilt _ _ told => told.ask rule path node rebuilt) tree .root _
    ⟨rfl, fun _ => rfl⟩

/-- A pass leaves the rule in the state at its end. -/
theorem apply_state (rule : Rule σ) (tree : Node) (state : σ) :
    (rule.apply tree state).2 = (rewrite rule .root tree { state }).2.state := by
  unfold apply
  rcases Rule.rewrite rule .root tree { state } with ⟨_ | outcome, after⟩
  · rfl
  · cases outcome <;> rfl

/-- The calls of a pass are those on the account at its end. -/
theorem calls_eq (rule : Rule σ) (tree : Node) (state : σ) :
    rule.calls tree state =
      (rewrite rule.recorded .root tree { state := (state, []) }).2.state.2 :=
  congrArg Prod.snd (apply_state rule.recorded tree (state, []))

/-- The answers on the account are those of the rule. -/
theorem exists_of_mem_calls {rule : Rule σ} {tree : Node} {state : σ} {call : Call}
    (h : call ∈ rule.calls tree state) :
    ∃ state, (rule call.path call.node state).1 = call.answer := by
  have answered : ∀ call ∈
      (rewrite rule.recorded .root tree { state := (state, []) }).2.state.2,
        ∃ state, (rule call.path call.node state).1 = call.answer := by
    refine rewrite_invariant (I := fun pass : Pass (σ × List Call) => ∀ call ∈ pass.state.2,
      ∃ state, (rule call.path call.node state).1 = call.answer) ?_ tree .root _
      (List.forall_mem_nil _)
    intro path node rebuilt pass _ before
    have one : ∃ state, (rule path (rebuilt.getD node) state).1 =
        (rule path (rebuilt.getD node) pass.state.1).1 := ⟨_, rfl⟩
    rw [ask_eq]
    dsimp only [recorded]
    split <;> exact List.forall_mem_append.2 ⟨before, List.forall_mem_singleton.2 one⟩
  exact answered call (calls_eq rule tree state ▸ h)

/-! ## The root -/

theorem outcome_ne_removed {call : Call} (fine : call.failure? = none)
    (root : call.path.isRoot = true) (rebuilt : Option Node) :
    call.outcome rebuilt ≠ .removed := by
  obtain ⟨path, node, answer⟩ := call
  cases answer with
  | keep => cases rebuilt <;> nofun
  | replace next => nofun
  | remove => simp [Call.failure?, show path.isRoot = true from root] at fine
  | replaceChildren children => nofun
  | stop => cases rebuilt <;> nofun

/-- The root is never removed: a rule that asks for it fails. -/
theorem rewrite_root_ne_removed (rule : Rule σ) (tree : Node) (pass : Pass σ) :
    (rewrite rule .root tree pass).1 ≠ .ok .removed := by
  cases going : pass.stopped with
  | true =>
    rw [rewrite_of_stopped rule .root tree going]
    nofun
  | false =>
    rw [rewrite_eq rule .root tree going]
    rcases Rule.rewriteAll rule .root 0 tree.children pass with ⟨_ | ⟨next, changed⟩, after⟩
    · nofun
    · dsimp only
      split
      · cases changed <;> nofun
      · rw [ask_eq]
        dsimp only
        split
        · nofun
        · rename_i fine
          intro removed
          exact outcome_ne_removed fine rfl _ (Except.ok.inj removed)

end Rule
end DocTree
