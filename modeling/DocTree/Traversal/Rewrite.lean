import DocTree.Node
import DocTree.Path

/-!
# Rewriting

A rule is asked once for each node of a tree, children before their parent, with the node over
its children as they are by then. It may keep the node, replace it, remove it, give it other
children, or end the rewriting, which keeps all that is left. A substituted node is not visited.
Nodes below which nothing changed are taken over as they are.

## Main definitions

- `Answer`, `Rule`: what a rule may say of a node, and a rule with its state.
- `Rule.apply`: one pass over a tree.
- `Pipeline`: passes one after the other.
-/

namespace DocTree

/-- What a rule says of a node. -/
inductive Answer where
  | keep
  | replace (next : Node)
  | remove
  | replaceChildren (children : List Node)
  | stop

/-- A rule with a state that is carried from call to call. -/
abbrev Rule (σ : Type) := Path → Node → σ → Answer × σ

/-- Why rewriting fails. -/
inductive RewriteError where
  | rootRemoved (typeName : String)
  | notContainer (typeName : String) (path : Path)
deriving DecidableEq, Repr

/-- The words for a failure. -/
def RewriteError.message : RewriteError → String
  | .rootRemoved typeName => "Cannot remove the root node '" ++ typeName ++ "'"
  | .notContainer typeName path =>
    "Node '" ++ typeName ++ "' at " ++ path.text ++ " has no children to replace"

/-- A rewritten tree, whether the rule ended the rewriting, and how many answers changed it. -/
structure Rewritten where
  tree : Node
  stopped : Bool
  rewrites : Nat

/-- A pass under way. -/
structure Pass (σ : Type) where
  state : σ
  stopped : Bool := false
  rewrites : Nat := 0

/-- What became of a node. -/
inductive Outcome where
  | unchanged
  | removed
  | rewritten (next : Node)

namespace Rule

variable {σ : Type}

/-- The pass with one more rewrite. -/
def counted (pass : Pass σ) : Pass σ := { pass with rewrites := pass.rewrites + 1 }

/-- What became of a node that its rule keeps, by its copy over changed children. -/
def kept : Option Node → Outcome
  | none => .unchanged
  | some node => .rewritten node

/-- Asks a rule for a node, or for its copy over changed children, and does as it says. -/
def ask (rule : Rule σ) (path : Path) (node : Node) (rebuilt : Option Node) (pass : Pass σ) :
    Except RewriteError Outcome × Pass σ :=
  let subject := rebuilt.getD node
  let (answer, state) := rule path subject pass.state
  let pass := { pass with state }
  match answer with
  | .keep => (.ok (kept rebuilt), pass)
  | .stop => (.ok (kept rebuilt), { pass with stopped := true })
  | .replace next => (.ok (.rewritten next), counted pass)
  | .remove =>
    if path.isRoot then (.error (.rootRemoved subject.typeName), pass)
    else (.ok .removed, counted pass)
  | .replaceChildren children =>
    match subject with
    | .container head _ => (.ok (.rewritten (.container head children)), counted pass)
    | _ => (.error (.notContainer subject.typeName path), pass)

/-- Puts what became of a child before what became of the children after it. -/
def gather (child : Node) (outcome : Outcome) : List Node × Bool → List Node × Bool
  | (later, changed) =>
    match outcome with
    | .unchanged => (child :: later, changed)
    | .rewritten next => (next :: later, true)
    | .removed => (later, true)

mutual

/-- Rewrites the tree at a path. -/
def rewrite (rule : Rule σ) (path : Path) :
    Node → Pass σ → Except RewriteError Outcome × Pass σ
  | .container head children, pass =>
    if pass.stopped then (.ok .unchanged, pass)
    else
      match rewriteAll rule path 0 children pass with
      | (.error e, pass) => (.error e, pass)
      | (.ok (next, changed), pass) =>
        let rebuilt := if changed then some (Node.container head next) else none
        if pass.stopped then (.ok (kept rebuilt), pass)
        else ask rule path (.container head children) rebuilt pass
  | .leaf head value, pass =>
    if pass.stopped then (.ok .unchanged, pass) else ask rule path (.leaf head value) none pass
  | .empty head, pass =>
    if pass.stopped then (.ok .unchanged, pass) else ask rule path (.empty head) none pass

/-- Rewrites children from a place on. The result says whether any of them changed. -/
def rewriteAll (rule : Rule σ) (path : Path) (place : Nat) :
    List Node → Pass σ → Except RewriteError (List Node × Bool) × Pass σ
  | [], pass => (.ok ([], false), pass)
  | node :: nodes, pass =>
    match rewrite rule (path.child place) node pass with
    | (.error e, pass) => (.error e, pass)
    | (.ok outcome, pass) =>
      match rewriteAll rule path (place + 1) nodes pass with
      | (.error e, pass) => (.error e, pass)
      | (.ok gathered, pass) => (.ok (gather node outcome gathered), pass)

end

/-- One pass of a rule over a tree, from a state. -/
def apply (rule : Rule σ) (tree : Node) (state : σ) : Except RewriteError Rewritten × σ :=
  match rewrite rule .root tree { state } with
  | (.error e, pass) => (.error e, pass.state)
  | (.ok .unchanged, pass) => (.ok ⟨tree, pass.stopped, pass.rewrites⟩, pass.state)
  | (.ok (.rewritten next), pass) => (.ok ⟨next, pass.stopped, pass.rewrites⟩, pass.state)
  | (.ok .removed, pass) => (.error (.rootRemoved tree.typeName), pass.state)

end Rule

/-! ## Pipelines -/

/-- Rules that are applied one after the other. -/
structure Pipeline (σ : Type) where
  passes : List (Rule σ) := []

namespace Pipeline

variable {σ : Type}

/-- One more pass at the end. -/
def add (pipeline : Pipeline σ) (rule : Rule σ) : Pipeline σ := ⟨pipeline.passes ++ [rule]⟩

/-- Applies rules in turn. A rule that stops ends them all. -/
def applyAll : List (Rule σ) → Node → Nat → σ → Except RewriteError Rewritten × σ
  | [], tree, rewrites, state => (.ok ⟨tree, false, rewrites⟩, state)
  | rule :: rules, tree, rewrites, state =>
    match rule.apply tree state with
    | (.error e, state) => (.error e, state)
    | (.ok result, state) =>
      if result.stopped then (.ok ⟨result.tree, true, rewrites + result.rewrites⟩, state)
      else applyAll rules result.tree (rewrites + result.rewrites) state

/-- Runs all passes over a tree, from a state. -/
def run (pipeline : Pipeline σ) (tree : Node) (state : σ) : Except RewriteError Rewritten × σ :=
  applyAll pipeline.passes tree 0 state

/-- A pipeline in words. -/
def summary (pipeline : Pipeline σ) : String :=
  "Pipeline \x7b passes: " ++ pipeline.passes.length.repr ++ " \x7d"

end Pipeline
end DocTree
