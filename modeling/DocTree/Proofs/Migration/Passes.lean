import DocTree.Migration.Promotion
import DocTree.Proofs.Traversal.Calls

/-!
# Moves in all nodes of a type

A move of entries visits the nodes of a type, children before their parent, and ends with the first
conflict. So it changes the heads of all nodes of the type, or it comes to nothing.

## Main definitions

* `Promotion.after` — the head that a move makes of a head.
* `Promotion.Goes` — a move of the heads of a tree that meets no conflict.
* `Promotion.conflict?` — the first conflict that a move meets in a tree.

## Main statements

* `Mapping.foldlM_induction` — entries are moved one by one.
* `Promotion.Settled.rewrite` — what a pass over a tree comes to.
* `Promotion.conflict?_eq_none_iff` — a move without a first conflict meets none.
* `Promotion.run_eq` — what a move comes to.
-/

namespace DocTree

open Rule

/-! ## Moves of one head -/

namespace Mapping

variable {pairs : List (String × String)} {head next : Head}
  {entry : Head → String → String → Except Clash Head}

theorem pairs_distinct (mapping : Mapping) : mapping.pairs.Pairwise fun a b => a.1 ≠ b.1 :=
  List.pairwise_map.1 mapping.fields.keys_nodup

theorem mem_pairs_iff {mapping : Mapping} {key field : String} :
    (key, field) ∈ mapping.pairs ↔ mapping.get? key = some field :=
  KeyMap.mem_entries_iff

theorem mem_targets_iff {mapping : Mapping} {field : String} :
    field ∈ mapping.targets ↔ ∃ key, mapping.get? key = some field := by
  simp only [← mem_pairs_iff]
  exact List.mem_map.trans (by simp [pairs])

theorem any_key_pairs (mapping : Mapping) (key : String) :
    (mapping.pairs.any fun pair => pair.1 == key) = (mapping.get? key).isSome := by
  rw [Bool.eq_iff_iff]
  simp [Option.isSome_iff_exists, mem_pairs_iff]

theorem any_field_pairs_iff {mapping : Mapping} {field : String} :
    (mapping.pairs.any fun pair => pair.2 == field) = true ↔
      ∃ key, mapping.get? key = some field := by
  simp [mem_pairs_iff]

/-- What holds of moving no entry and one entry, and of one move after the other, holds of moving
the entries of distinct keys. -/
theorem foldlM_induction {R : List (String × String) → Head → Head → Prop}
    (nil : ∀ head, R [] head head)
    (single : ∀ {head next key field}, entry head key field = .ok next → R [(key, field)] head next)
    (cons : ∀ {key field pairs head middle next}, (∀ pair ∈ pairs, pair.1 ≠ key) →
      R [(key, field)] head middle → R pairs middle next → R ((key, field) :: pairs) head next)
    (distinct : pairs.Pairwise fun a b => a.1 ≠ b.1)
    (h : pairs.foldlM (fun head pair => entry head pair.1 pair.2) head = .ok next) :
    R pairs head next := by
  induction pairs generalizing head with
  | nil =>
    cases h
    exact nil _
  | cons first pairs ih =>
    obtain ⟨other, distinct⟩ := List.pairwise_cons.1 distinct
    rw [List.foldlM_cons] at h
    obtain ⟨middle, step, h⟩ := Except.bind_eq_ok_iff.1 h
    exact cons (fun pair mem => Ne.symm (other pair mem)) (single step) (ih distinct h)

theorem foldlM_of_fixed (fixed : ∀ pair ∈ pairs, entry head pair.1 pair.2 = .ok head) :
    pairs.foldlM (fun head pair => entry head pair.1 pair.2) head = .ok head := by
  induction pairs with
  | nil => rfl
  | cons first pairs ih =>
    obtain ⟨here, later⟩ := List.forall_mem_cons.1 fixed
    rw [List.foldlM_cons, here]
    exact ih later

/-- When entries are moved only if there are any, the head is the same as if they were moved. -/
theorem getD_of_guarded {needed : Prop} [Decidable needed] {run : Except Clash Head}
    {moved : Option Head} (h : (if needed then some <$> run else .ok none) = .ok moved)
    (idle : ¬needed → run = .ok head) : run = .ok (moved.getD head) := by
  split at h
  · cases run with
    | error clash => cases h
    | ok next =>
      cases h
      rfl
  · rename_i nothing
    cases h
    exact idle nothing

end Mapping

namespace Promotion

variable (promotion : Promotion) (move : Head → Except Clash (Option Head))

/-! ## Definitions -/

/-- The head that a move makes of a head, in nodes of the type and where there is no conflict. -/
def after (head : Head) : Head :=
  if head.typeName = promotion.typeName then
    match move head with
    | .ok moved => moved.getD head
    | .error _ => head
  else head

/-- The move meets no conflict in the nodes of the type. -/
def Goes (tree : Node) : Prop :=
  ∀ places found, tree.at? places = some found → found.typeName = promotion.typeName →
    ∃ moved, move found.head = .ok moved

/-- The conflict that a move meets in one head, when it is that of a node of the type. -/
def conflictAt? (path : Path) (head : Head) : Option PromotionError :=
  if head.typeName = promotion.typeName then
    match move head with
    | .ok _ => none
    | .error clash => some (.conflict promotion.typeName clash.dataKey clash.field path)
  else none

mutual

/-- The first conflict that a move meets in the tree at a path, children before their parent. -/
def conflict? (path : Path) : Node → Option PromotionError
  | .container head children =>
    (conflictAll? path 0 children).or (promotion.conflictAt? move path head)
  | .leaf head _ => promotion.conflictAt? move path head
  | .empty head => promotion.conflictAt? move path head

/-- The first conflict that a move meets in children from a place on. -/
def conflictAll? (path : Path) (place : Nat) : List Node → Option PromotionError
  | [] => none
  | node :: nodes => (conflict? (path.child place) node).or (conflictAll? path (place + 1) nodes)

end

/-- A pass has ended with a conflict, or goes on without one. -/
structure Met (found : Option PromotionError) (pass : Pass (Option PromotionError)) : Prop where
  stopped : pass.stopped = found.isSome
  state : pass.state = found

/-- A node has been rewritten: the pass has met the first conflict in it, and without one all heads
are moved. -/
def Settled (path : Path) (node : Node)
    (result : Except RewriteError Outcome × Pass (Option PromotionError)) : Prop :=
  ∃ outcome pass next, result = (.ok outcome, pass) ∧ outcome.node? node = some next ∧
    Met (promotion.conflict? move path node) pass ∧
    (promotion.conflict? move path node = none → next = node.mapHeads (promotion.after move))

/-- Nodes have been rewritten. When none of them changed, they are as they were. -/
def SettledAll (path : Path) (place : Nat) (nodes : List Node)
    (result : Except RewriteError (List Node × Bool) × Pass (Option PromotionError)) : Prop :=
  ∃ next changed pass, result = (.ok (next, changed), pass) ∧
    (changed = false → next = nodes) ∧
    Met (promotion.conflictAll? move path place nodes) pass ∧
    (promotion.conflictAll? move path place nodes = none →
      next = nodes.map (Node.mapHeads (promotion.after move)))

variable {promotion move}

/-! ## Conflicts -/

theorem goes_iff {node : Node} :
    promotion.Goes move node ↔
      (node.typeName = promotion.typeName → ∃ moved, move node.head = .ok moved) ∧
        ∀ child ∈ node.children, promotion.Goes move child :=
  Node.forall_at?_iff (P := fun _ found =>
    found.typeName = promotion.typeName → ∃ moved, move found.head = .ok moved)

theorem conflictAt?_eq_none_iff {path : Path} {head : Head} :
    promotion.conflictAt? move path head = none ↔
      (head.typeName = promotion.typeName → ∃ moved, move head = .ok moved) := by
  unfold conflictAt?
  cases move head <;> simp

theorem conflictAt?_of_error {path : Path} {head : Head} {clash : Clash}
    (typed : head.typeName = promotion.typeName) (failed : move head = .error clash) :
    promotion.conflictAt? move path head =
      some (.conflict promotion.typeName clash.dataKey clash.field path) := by
  rw [conflictAt?, if_pos typed, failed]

/-- The first conflict of a node is that of its children, or its own. -/
theorem conflict?_eq (path : Path) (node : Node) :
    promotion.conflict? move path node =
      (promotion.conflictAll? move path 0 node.children).or
        (promotion.conflictAt? move path node.head) := by
  cases node <;> rfl

theorem conflictAll?_eq_none_iff {nodes : List Node}
    (below : ∀ node ∈ nodes, ∀ path,
      promotion.conflict? move path node = none ↔ promotion.Goes move node)
    (path : Path) (place : Nat) :
    promotion.conflictAll? move path place nodes = none ↔
      ∀ node ∈ nodes, promotion.Goes move node := by
  induction nodes generalizing place with
  | nil => exact iff_of_true rfl (List.forall_mem_nil _)
  | cons node nodes ih =>
    obtain ⟨here, later⟩ := List.forall_mem_cons.1 below
    rw [conflictAll?, Option.or_eq_none_iff, here, ih later, List.forall_mem_cons]

/-- A move without a first conflict meets none. -/
theorem conflict?_eq_none_iff {path : Path} {node : Node} :
    promotion.conflict? move path node = none ↔ promotion.Goes move node := by
  induction node using Node.inductChildren generalizing path with
  | step node ih =>
    rw [conflict?_eq, Option.or_eq_none_iff,
      conflictAll?_eq_none_iff fun child mem _ => ih child mem, conflictAt?_eq_none_iff, goes_iff,
      and_comm]
    rfl

/-! ## Passes -/

/-- The rule moves entries in the node that it is asked for, or ends the pass. -/
theorem ask_rule (promotion : Promotion) (move : Head → Except Clash (Option Head)) (path : Path)
    {node subject : Node} {rebuilt : Option Node} (h : rebuilt.getD node = subject)
    {pass : Pass (Option PromotionError)} (going : Met none pass) :
    ∃ outcome after next, ask (promotion.rule move) path node rebuilt pass = (.ok outcome, after) ∧
      outcome.node? node = some next ∧
      Met (promotion.conflictAt? move path subject.head) after ∧
      (promotion.conflictAt? move path subject.head = none →
        next = subject.mapHead (promotion.after move)) := by
  have becomes : (kept rebuilt).node? node = some subject := h ▸ node?_kept node rebuilt
  unfold ask rule
  rw [h]
  by_cases typed : subject.typeName = promotion.typeName
  · cases result : move subject.head with
    | error clash =>
      rw [conflictAt?_of_error typed result]
      let conflict : PromotionError :=
        .conflict promotion.typeName clash.dataKey clash.field path
      exact ⟨kept rebuilt, { pass with stopped := true, state := some conflict }, subject,
        by simp [typed, result, conflict], becomes, ⟨rfl, rfl⟩, nofun⟩
    | ok moved =>
      have free : promotion.conflictAt? move path subject.head = none :=
        conflictAt?_eq_none_iff.2 fun _ => ⟨moved, result⟩
      have head : promotion.after move subject.head = moved.getD subject.head := by
        simp only [after, result, ite_eq_left_iff]
        exact fun other => absurd typed other
      rw [free, Node.mapHead_eq_of_head head]
      cases moved with
      | none =>
        exact ⟨kept rebuilt, pass, subject, by simp [typed, result], becomes, going, by simp⟩
      | some next =>
        exact ⟨.rewritten _, counted pass, _, by simp [typed, result, counted], rfl,
          ⟨going.stopped, going.state⟩, fun _ => rfl⟩
  · have free : promotion.conflictAt? move path subject.head = none :=
      conflictAt?_eq_none_iff.2 fun same => absurd same typed
    have head : promotion.after move subject.head = subject.head := if_neg typed
    rw [free, Node.mapHead_eq_of_head head]
    exact ⟨kept rebuilt, pass, subject, by simp [typed], becomes, going, by simp⟩

theorem Settled.rewriteAll {nodes : List Node}
    (below : ∀ node ∈ nodes, ∀ path pass, Met none pass →
      promotion.Settled move path node (rewrite (promotion.rule move) path node pass))
    (path : Path) (place : Nat) {pass : Pass (Option PromotionError)} (going : Met none pass) :
    promotion.SettledAll move path place nodes
      (rewriteAll (promotion.rule move) path place nodes pass) := by
  induction nodes generalizing place pass with
  | nil => exact ⟨[], false, pass, rfl, fun _ => rfl, going, fun _ => rfl⟩
  | cons node nodes ih =>
    obtain ⟨here, later⟩ := List.forall_mem_cons.1 below
    obtain ⟨outcome, pass, next, same, becomes, met, moved⟩ := here (path.child place) pass going
    have gathered : ∀ {rest changed}, (changed = false → rest = nodes) →
        ∃ all, gather node outcome (rest, changed) = (next :: rest, all) ∧
          (all = false → next :: rest = node :: nodes) := by
      intro rest changed keeps
      cases outcome with
      | unchanged =>
        obtain rfl : node = next := Option.some.inj becomes
        exact ⟨changed, rfl, fun h => congrArg _ (keeps h)⟩
      | rewritten found =>
        obtain rfl : found = next := Option.some.inj becomes
        exact ⟨true, rfl, nofun⟩
      | removed => cases becomes
    unfold Rule.rewriteAll SettledAll conflictAll?
    rw [same]
    dsimp only
    cases conflict : promotion.conflict? move (path.child place) node with
    | some e =>
      -- The pass ended in this node, so the nodes after it are left alone.
      rw [conflict] at met
      rw [rewriteAll_of_stopped (promotion.rule move) path (place + 1) nodes met.stopped]
      have same : false = false → nodes = nodes := fun _ => rfl
      obtain ⟨all, list, keeps⟩ := gathered same
      refine ⟨_, all, pass, by simp only [list], keeps, met, fun free => ?_⟩
      cases free
    | none =>
      rw [conflict] at met
      obtain ⟨rest, changed, pass, same, keeps, met, rests⟩ := ih later (place + 1) met
      obtain ⟨all, list, keeps⟩ := gathered keeps
      rw [same]
      refine ⟨_, all, pass, by simp only [list], keeps, met, fun free => ?_⟩
      rw [List.map_cons, moved conflict, rests free]

/-- A node whose children have been moved is settled by asking the rule for it. -/
theorem Settled.ask (path : Path) {node subject : Node} {rebuilt : Option Node}
    (h : rebuilt.getD node = subject) (head : subject.head = node.head)
    (map : subject.mapHead (promotion.after move) = node.mapHeads (promotion.after move))
    (children : promotion.conflictAll? move path 0 node.children = none)
    {pass : Pass (Option PromotionError)} (going : Met none pass) :
    promotion.Settled move path node (ask (promotion.rule move) path node rebuilt pass) := by
  have conflict : promotion.conflict? move path node =
      promotion.conflictAt? move path subject.head := by
    rw [conflict?_eq, children, head, Option.none_or]
  unfold Settled
  rw [conflict, ← map]
  exact ask_rule promotion move path h going

/-- A pass moves the heads of all of a tree, or ends with its first conflict. -/
theorem Settled.rewrite (node : Node) : ∀ path (pass : Pass (Option PromotionError)),
    Met none pass →
      promotion.Settled move path node (rewrite (promotion.rule move) path node pass) := by
  induction node using Node.inductChildren with
  | step node ih =>
    intro path pass going
    rw [rewrite_eq _ path node going.stopped]
    obtain ⟨next, changed, pass, same, keeps, met, moved⟩ := Settled.rewriteAll ih path 0 going
    rw [same]
    dsimp only
    cases conflict : promotion.conflictAll? move path 0 node.children with
    | some e =>
      rw [conflict] at met
      have found : promotion.conflict? move path node = some e := by
        rw [conflict?_eq, conflict, Option.some_or]
      have stopped : pass.stopped = true := met.stopped
      unfold Settled
      rw [if_pos stopped, found]
      exact ⟨_, pass, _, rfl, node?_kept _ _, met, nofun⟩
    | none =>
      rw [conflict] at met
      rw [if_neg (Bool.eq_false_iff.1 met.stopped)]
      have map : (node.withChildren next).mapHead (promotion.after move) =
          node.mapHeads (promotion.after move) := by
        rw [moved conflict]
        exact Node.mapHead_withChildren_map _ node
      exact Settled.ask path (getD_rebuilt keeps) (Node.head_withChildren next node) map conflict
        met

/-! ## Runs -/

/-- What a move comes to when its fields are no base keys: the first conflict, or the tree with the
heads of all nodes of the type changed. -/
theorem run_eq (aborted : String → Notice) (tree : Node)
    (fields : ∀ field ∈ promotion.mapping.targets, isBaseKey field = false) :
    promotion.run move aborted tree =
      match promotion.conflict? move .root tree with
      | some e => ⟨.error e, [aborted e.message]⟩
      | none => ⟨.ok (tree.mapHeads (promotion.after move)), []⟩ := by
  have notBase : promotion.mapping.targets.find? isBaseKey = none := by simpa using fields
  have going : Met none { state := (none : Option PromotionError) } := ⟨rfl, rfl⟩
  have settled : promotion.Settled move .root tree _ := .rewrite tree .root _ going
  obtain ⟨outcome, ⟨state, stopped, rewrites⟩, next, same, becomes, ⟨-, met⟩, moved⟩ := settled
  unfold run apply
  dsimp only at met
  rw [notBase, same, met]
  cases conflict : promotion.conflict? move .root tree with
  | some e =>
    cases outcome with
    | unchanged => rfl
    | rewritten found => rfl
    | removed => cases becomes
  | none =>
    rw [← moved conflict]
    cases outcome with
    | unchanged =>
      obtain rfl := Option.some.inj becomes
      rfl
    | rewritten found =>
      obtain rfl := Option.some.inj becomes
      rfl
    | removed => cases becomes

/-- What a move makes of a tree: it meets no conflict, its fields are no base keys, and it changes
the heads of the nodes of the type. -/
theorem run_eq_ok {aborted : String → Notice} {tree moved : Node}
    (h : (promotion.run move aborted tree).result = .ok moved) :
    moved = tree.mapHeads (promotion.after move) ∧ promotion.Goes move tree ∧
      ∀ field ∈ promotion.mapping.targets, isBaseKey field = false := by
  have fields : ∀ field ∈ promotion.mapping.targets, isBaseKey field = false := by
    unfold run at h
    split at h
    · cases h
    · rename_i notBase
      simpa using notBase
  rw [run_eq aborted tree fields] at h
  cases conflict : promotion.conflict? move .root tree with
  | some e =>
    rw [conflict] at h
    cases h
  | none =>
    rw [conflict] at h
    cases h
    exact ⟨rfl, conflict?_eq_none_iff.1 conflict, fields⟩

/-- A move that meets no conflict changes the heads of the nodes of the type. -/
theorem run_of_goes (aborted : String → Notice) {tree : Node} (goes : promotion.Goes move tree)
    (fields : ∀ field ∈ promotion.mapping.targets, isBaseKey field = false) :
    (promotion.run move aborted tree).result = .ok (tree.mapHeads (promotion.after move)) := by
  rw [run_eq aborted tree fields, conflict?_eq_none_iff.2 goes]

theorem after_of_ne {head : Head} (other : head.typeName ≠ promotion.typeName) :
    promotion.after move head = head := if_neg other

end Promotion
end DocTree
