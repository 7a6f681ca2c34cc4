import DocTree.Proofs.Traversal.Calls

/-!
# Rebuilding

Plain rewriting builds all containers anew: it rewrites the children of a node, puts the node over
what became of them, and does as the rule says. A pass that takes over what has not changed comes to
the same, with the same calls, unless it is ended.

## Main definitions

* `Rebuilding` — what became of nodes, the calls made for them, and the state after these.
* `Rule.rebuild` — plain rewriting.

## Main statements

* `Rule.rewriteAll_unchanged` — children that have not changed are as they were.
* `Rule.rewrite_agrees` — a pass that is not ended does what plain rewriting does.
-/

namespace DocTree

/-- What became of nodes, the calls that were made for them, and the state after these. -/
structure Rebuilding (σ : Type) where
  result : Except RewriteError (List Node)
  calls : List Call
  state : σ

namespace Rebuilding

variable {σ : Type}

/-- Goes on with what became of nodes, unless that was a failure. -/
def andThen (first : Rebuilding σ) (next : List Node → σ → Rebuilding σ) : Rebuilding σ :=
  match first.result with
  | .error _ => first
  | .ok nodes =>
    let later := next nodes first.state
    { later with calls := first.calls ++ later.calls }

/-- Puts nodes before what became of others. -/
def prepend (nodes : List Node) (later : Rebuilding σ) : Rebuilding σ :=
  { later with result := later.result.map (nodes ++ ·) }

variable {first later : Rebuilding σ} {next : List Node → σ → Rebuilding σ} {nodes : List Node}

theorem andThen_of_error {e : RewriteError} (h : first.result = .error e) :
    first.andThen next = first := by
  rw [andThen, h]

theorem andThen_of_ok (h : first.result = .ok nodes) :
    first.andThen next =
      { next nodes first.state with calls := first.calls ++ (next nodes first.state).calls } := by
  rw [andThen, h]

theorem andThen_eq_ok_iff {all : List Node} : (first.andThen next).result = .ok all ↔
    ∃ nodes, first.result = .ok nodes ∧ (next nodes first.state).result = .ok all := by
  unfold andThen
  cases made : first.result <;> simp [made]

theorem prepend_eq_ok_iff {all : List Node} : (later.prepend nodes).result = .ok all ↔
    ∃ rest, later.result = .ok rest ∧ all = nodes ++ rest := by
  unfold prepend
  cases later.result <;> simp [Except.map, eq_comm]

theorem prepend_eq_error_iff {e : RewriteError} :
    (later.prepend nodes).result = .error e ↔ later.result = .error e := by
  unfold prepend
  cases later.result <;> simp [Except.map]

end Rebuilding

namespace Rule

variable {σ : Type}

/-! ## Plain rewriting -/

/-- Calls the rule for a node. -/
def consult (rule : Rule σ) (path : Path) (node : Node) (state : σ) : Rebuilding σ :=
  let (answer, after) := rule path node state
  let call : Call := ⟨path, node, answer⟩
  ⟨call.result, [call], after⟩

mutual

/-- Rebuilds the tree at a path: its children, and then the node over what became of them. -/
def rebuild (rule : Rule σ) (path : Path) : Node → σ → Rebuilding σ
  | .container head children, state =>
    (rebuildAll rule path 0 children state).andThen fun next =>
      consult rule path (.container head next)
  | .leaf head value, state => consult rule path (.leaf head value) state
  | .empty head, state => consult rule path (.empty head) state

/-- Rebuilds children from a place on. -/
def rebuildAll (rule : Rule σ) (path : Path) (place : Nat) : List Node → σ → Rebuilding σ
  | [], state => ⟨.ok [], [], state⟩
  | node :: nodes, state =>
    (rebuild rule (path.child place) node state).andThen fun here state =>
      (rebuildAll rule path (place + 1) nodes state).prepend here

end

theorem rebuild_eq (rule : Rule σ) (path : Path) (node : Node) (state : σ) :
    rebuild rule path node state =
      (rebuildAll rule path 0 node.children state).andThen fun next =>
        consult rule path (node.withChildren next) := by
  cases node <;> rfl

/-! ## Agreement -/

/-- What became of a node, in the place of the node. -/
def inPlace (node : Node) (result : Except RewriteError Outcome) :
    Except RewriteError (List Node) :=
  result.map fun outcome => (outcome.node? node).toList

/-- A pass of the recorded rule came to the same as a rebuilding, and made the same calls. -/
structure Agrees (result : Except RewriteError (List Node)) (before after : Pass (σ × List Call))
    (rebuilding : Rebuilding σ) : Prop where
  result : result = rebuilding.result
  state : after.state = (rebuilding.state, before.state.2 ++ rebuilding.calls)

namespace Agrees

variable {result : Except RewriteError (List Node)} {before middle after : Pass (σ × List Call)}
  {first : Rebuilding σ} {nodes : List Node}

theorem andThen_error {e : RewriteError} {next : List Node → σ → Rebuilding σ}
    (h : Agrees (.error e) before after first) :
    Agrees (.error e) before after (first.andThen next) := by
  rwa [Rebuilding.andThen_of_error h.result.symm]

theorem andThen {next : List Node → σ → Rebuilding σ} (h : Agrees (.ok nodes) before middle first)
    (later : Agrees result middle after (next nodes middle.state.1)) :
    Agrees result before after (first.andThen next) := by
  obtain ⟨state, account⟩ := Prod.mk.inj h.state
  rw [state] at later
  rw [Rebuilding.andThen_of_ok h.result.symm]
  exact ⟨later.result, by rw [later.state, account, List.append_assoc]⟩

theorem prepend (h : Agrees result before after first) :
    Agrees (result.map (nodes ++ ·)) before after (first.prepend nodes) :=
  ⟨congrArg _ h.result, h.state⟩

end Agrees

theorem gather_fst (node : Node) (outcome : Outcome) (gathered : List Node × Bool) :
    (gather node outcome gathered).1 = (outcome.node? node).toList ++ gathered.1 := by
  cases outcome <;> rfl

theorem gather_unchanged {node : Node} {outcome : Outcome} {gathered : List Node × Bool}
    {next : List Node} (h : gather node outcome gathered = (next, false)) :
    gathered.2 = false ∧ next = node :: gathered.1 := by
  obtain ⟨later, changed⟩ := gathered
  cases outcome <;> cases h
  exact ⟨rfl, rfl⟩

/-- Children that have not changed are as they were. -/
theorem rewriteAll_unchanged {rule : Rule σ} {path : Path} {place : Nat} {nodes next : List Node}
    {pass after : Pass σ} (h : rewriteAll rule path place nodes pass = (.ok (next, false), after)) :
    next = nodes := by
  induction nodes generalizing place pass after next with
  | nil =>
    cases h
    rfl
  | cons node nodes ih =>
    rw [rewriteAll] at h
    split at h
    · cases h
    · split at h
      · cases h
      · rename_i gathered last same
        obtain ⟨all, -⟩ := Prod.mk.inj h
        obtain ⟨unchanged, rfl⟩ := gather_unchanged (Except.ok.inj all)
        obtain ⟨later, changed⟩ := gathered
        obtain rfl : changed = false := unchanged
        rw [ih same]

theorem outcome_inPlace {call : Call} {node : Node} {rebuilt : Option Node}
    (h : rebuilt.getD node = call.node) :
    ((call.outcome rebuilt).node? node).toList = call.placed := by
  obtain ⟨path, subject, answer⟩ := call
  obtain rfl : rebuilt.getD node = subject := h
  cases answer with
  | keep => exact congrArg Option.toList (node?_kept node rebuilt)
  | replace next => rfl
  | remove => rfl
  | replaceChildren children => rfl
  | stop => exact congrArg Option.toList (node?_kept node rebuilt)

theorem ask_agrees (rule : Rule σ) (path : Path) {node subject : Node} {rebuilt : Option Node}
    (h : rebuilt.getD node = subject) (pass : Pass (σ × List Call)) :
    Agrees (inPlace node (ask rule.recorded path node rebuilt pass).1) pass
      (ask rule.recorded path node rebuilt pass).2 (consult rule path subject pass.state.1) := by
  subst h
  rw [ask_eq]
  dsimp only [recorded, consult]
  generalize rule path (rebuilt.getD node) pass.state.1 = asked
  obtain ⟨answer, state⟩ := asked
  dsimp only [Call.result]
  split
  · exact ⟨rfl, rfl⟩
  · exact ⟨congrArg Except.ok (outcome_inPlace rfl), rfl⟩

/-- A pass that goes on after the children of a node has been going on before them. -/
theorem going_of_rewriteAll {rule : Rule σ} {path : Path} {place : Nat} {nodes : List Node}
    {pass : Pass σ} (h : (rewriteAll rule path place nodes pass).2.stopped = false) :
    pass.stopped = false := by
  grind [rewriteAll_of_stopped]

theorem going_of_rewrite {rule : Rule σ} {path : Path} {node : Node} {pass : Pass σ}
    (h : (rewrite rule path node pass).2.stopped = false) : pass.stopped = false := by
  grind [rewrite_of_stopped]

theorem rewriteAll_agrees {rule : Rule σ} {nodes : List Node}
    (below : ∀ node ∈ nodes, ∀ path pass, (rewrite rule.recorded path node pass).2.stopped = false →
      Agrees (inPlace node (rewrite rule.recorded path node pass).1) pass
        (rewrite rule.recorded path node pass).2 (rebuild rule path node pass.state.1))
    (path : Path) (place : Nat) (pass : Pass (σ × List Call))
    (going : (rewriteAll rule.recorded path place nodes pass).2.stopped = false) :
    Agrees ((rewriteAll rule.recorded path place nodes pass).1.map Prod.fst) pass
      (rewriteAll rule.recorded path place nodes pass).2
      (rebuildAll rule path place nodes pass.state.1) := by
  induction nodes generalizing place pass with
  | nil => exact ⟨rfl, by simp [rewriteAll, rebuildAll]⟩
  | cons node nodes ih =>
    obtain ⟨here, later⟩ := List.forall_mem_cons.1 below
    have first := here (path.child place) pass
    rw [rewriteAll] at going ⊢
    rw [rebuildAll]
    generalize rewrite rule.recorded (path.child place) node pass = done at first going ⊢
    obtain ⟨_ | outcome, middle⟩ := done
    · exact (first going).andThen_error
    · dsimp only at going first ⊢
      have rest := ih later (place + 1) middle
      have goes : (rewriteAll rule.recorded path (place + 1) nodes middle).2.stopped = false →
          middle.stopped = false := going_of_rewriteAll
      generalize rewriteAll rule.recorded path (place + 1) nodes middle = done at rest goes going ⊢
      obtain ⟨_ | gathered, after⟩ := done
      · exact (first (goes going)).andThen (rest going).prepend
      · dsimp only [Except.map]
        rw [gather_fst]
        exact (first (goes going)).andThen (rest going).prepend

/-- A pass that is not ended does what plain rewriting does. -/
theorem rewrite_agrees (rule : Rule σ) (node : Node) (path : Path) (pass : Pass (σ × List Call))
    (going : (rewrite rule.recorded path node pass).2.stopped = false) :
    Agrees (inPlace node (rewrite rule.recorded path node pass).1) pass
      (rewrite rule.recorded path node pass).2 (rebuild rule path node pass.state.1) := by
  induction node using Node.inductChildren generalizing path pass with
  | step node ih =>
    have below := rewriteAll_agrees ih path 0 pass
    have goes := going_of_rewrite going
    rw [rewrite_eq rule.recorded path node goes] at going ⊢
    rw [rebuild_eq]
    cases done : rewriteAll rule.recorded path 0 node.children pass with
    | mk made middle =>
      rw [done] at below going
      cases made with
      | error e => exact (below going).andThen_error
      | ok gathered =>
        obtain ⟨next, changed⟩ := gathered
        dsimp only at below going ⊢
        cases ended : middle.stopped with
        | true =>
          rw [if_pos ended] at going
          exact absurd (ended.symm.trans going) nofun
        | false =>
          rw [if_neg nofun]
          have subject :
              (if changed = true then some (node.withChildren next) else none).getD node =
                node.withChildren next := by
            refine getD_rebuilt fun unchanged => ?_
            subst unchanged
            exact rewriteAll_unchanged done
          exact (below ended).andThen (ask_agrees rule path subject middle)

end Rule
end DocTree
