import DocTree.Proofs.Traversal.Accounts

/-!
# Passes from the bottom up

A pass takes over what has not changed and builds anew what has. When its rule does not end it, it
comes to what plain rewriting comes to, with the same calls: for the nodes of the tree as a visit
leaves them, each over what became of its children. It fails with the first call that asks for what
cannot be done.

## Main definitions

* `Rule.BottomUp` — what a pass comes to when its rule does not end it.

## Main statements

* `Rule.apply_cases` — such a pass fails as plain rewriting does, or has its tree.
* `Rule.apply_bottomUp` — such a pass is plain rewriting from the bottom up.
-/

namespace DocTree
namespace Rule

variable {σ : Type}

/-! ## Whole passes -/

/-- What a pass comes to when its rule does not end it. -/
structure BottomUp (rule : Rule σ) (tree : Node) (state : σ) : Prop where
  /-- The account of the calls is kept beside a pass that it does not change. -/
  recorded : rule.recorded.apply tree (state, []) =
    ((rule.apply tree state).1, (rule.apply tree state).2, rule.calls tree state)
  /-- Plain rewriting makes the same calls. -/
  calls : (rule.rebuild .root tree state).calls = rule.calls tree state
  /-- Plain rewriting leaves the rule in the same state. -/
  after : (rule.rebuild .root tree state).state = (rule.apply tree state).2
  /-- The pass fails as plain rewriting does. -/
  fails : ∀ e, (rule.apply tree state).1 = .error e ↔
    (rule.rebuild .root tree state).result = .error e
  /-- The pass comes to the tree of plain rewriting, and counts the answers that rewrite. -/
  succeeds : ∀ rewritten, (rule.apply tree state).1 = .ok rewritten ↔
    (rule.rebuild .root tree state).result = .ok [rewritten.tree] ∧ rewritten.stopped = false ∧
      rewritten.rewrites = (rule.calls tree state).countP (·.answer.rewrites)
  /-- The rule is called for nodes as a visit leaves them. -/
  order : (rule.calls tree state).map (·.path) <+:
    (Visitor.leaveNotes.visit .all tree []).2.map (·.path)
  /-- A pass that does not fail calls the rule for all that a visit leaves. -/
  complete : ∀ rewritten, (rule.apply tree state).1 = .ok rewritten →
    (rule.calls tree state).map (·.path) = (Visitor.leaveNotes.visit .all tree []).2.map (·.path)
  /-- A pass that does not fail calls the rule for the nodes at all places. -/
  reaches : ∀ rewritten, (rule.apply tree state).1 = .ok rewritten →
    ∀ places node, tree.at? places = some node →
      .ofPlaces places ∈ (rule.calls tree state).map (·.path)
  /-- No node is called for twice. -/
  once : ((rule.calls tree state).map (·.path)).Nodup
  /-- The rule is shown the node at its path, over what was put in the places of its children. -/
  subjects : ∀ call ∈ rule.calls tree state, ∃ places node, call.path = .ofPlaces places ∧
    tree.at? places = some node ∧
      call.node = node.withChildren (placedBelow (rule.calls tree state) call.path)
  /-- The pass fails with the first call that fails. -/
  failure : ∀ e, (rule.apply tree state).1 = .error e ↔
    (rule.calls tree state).findSome? Call.failure? = some e
  /-- A call that fails is the last one. -/
  last : ∀ call ∈ (rule.calls tree state).dropLast, call.failure? = none
  /-- What becomes of the root is never that it is removed. -/
  root : (rewrite rule .root tree { state }).1 ≠ .ok .removed

/-- The pass of a recorded rule that does not end it is not ended. -/
theorem going_recorded {rule : Rule σ} {tree : Node} {state : σ}
    (goes : ∀ call ∈ rule.calls tree state, call.answer ≠ .stop) :
    (rewrite rule.recorded .root tree { state := (state, []) }).2.stopped = false := by
  rw [(Told.rewrite rule tree state).stopped, ← calls_eq, List.any_eq_false]
  intro call mem
  simp [Answer.stops_eq_false_iff.2 (goes call mem)]

variable {rule : Rule σ} {tree : Node} {state : σ}

theorem agrees_recorded (goes : ∀ call ∈ rule.calls tree state, call.answer ≠ .stop) :
    Agrees (inPlace tree (rewrite rule.recorded .root tree { state := (state, []) }).1)
      { state := (state, []) } (rewrite rule.recorded .root tree { state := (state, []) }).2
      (rebuild rule .root tree state) :=
  rewrite_agrees rule tree .root { state := (state, []) } (going_recorded goes)

theorem calls_rebuild (goes : ∀ call ∈ rule.calls tree state, call.answer ≠ .stop) :
    (rule.rebuild .root tree state).calls = rule.calls tree state := by
  rw [calls_eq, (agrees_recorded goes).state]
  rfl

/-- A pass that its rule does not end fails as plain rewriting does, or has its tree. -/
theorem apply_cases (goes : ∀ call ∈ rule.calls tree state, call.answer ≠ .stop) :
    (∃ e, (rule.apply tree state).1 = .error e ∧
      (rule.rebuild .root tree state).result = .error e) ∨
    ∃ next, (rule.apply tree state).1 =
        .ok ⟨next, false, (rule.calls tree state).countP (·.answer.rewrites)⟩ ∧
      (rule.rebuild .root tree state).result = .ok [next] := by
  have account := faithful_rebuild rule tree .root state
  have calls := calls_rebuild goes
  have told := Told.rewrite rule tree state
  have going := going_recorded goes
  have agrees := (agrees_recorded goes).result
  have stays := rewrite_root_ne_removed rule.recorded tree { state := (state, []) }
  have same : (rule.apply tree state).1 = (rule.recorded.apply tree (state, [])).1 :=
    (congrArg Prod.fst (apply_recorded rule tree state)).symm
  have rewrites : ∀ nodes, (rule.rebuild .root tree state).result = .ok nodes →
      (rewrite rule.recorded .root tree { state := (state, []) }).2.rewrites =
        (rule.calls tree state).countP (·.answer.rewrites) := by
    intro nodes made
    have fine := account.accounted.fine nodes made
    rw [calls, calls_eq] at fine
    rw [told.rewrites fine, calls_eq]
  rw [same, apply]
  generalize rewrite rule.recorded .root tree { state := (state, []) } = done
    at going agrees stays rewrites ⊢
  obtain ⟨_ | outcome, pass⟩ := done
  · exact .inl ⟨_, rfl, agrees.symm⟩
  · cases outcome with
    | unchanged =>
      refine .inr ⟨tree, ?_, agrees.symm⟩
      dsimp only at going ⊢
      rw [going, ← rewrites _ agrees.symm]
    | removed => exact absurd rfl stays
    | rewritten next =>
      refine .inr ⟨next, ?_, agrees.symm⟩
      dsimp only at going ⊢
      rw [going, ← rewrites _ agrees.symm]

theorem apply_eq_error_iff (goes : ∀ call ∈ rule.calls tree state, call.answer ≠ .stop)
    {e : RewriteError} : (rule.apply tree state).1 = .error e ↔
      (rule.rebuild .root tree state).result = .error e := by
  rcases apply_cases goes with ⟨e', failed, plain⟩ | ⟨next, done, plain⟩
  · rw [failed, plain]
    exact ⟨fun same => congrArg _ (Except.error.inj same),
      fun same => congrArg _ (Except.error.inj same)⟩
  · rw [done, plain]
    exact ⟨nofun, nofun⟩

theorem apply_eq_ok_iff (goes : ∀ call ∈ rule.calls tree state, call.answer ≠ .stop)
    {rewritten : Rewritten} : (rule.apply tree state).1 = .ok rewritten ↔
      (rule.rebuild .root tree state).result = .ok [rewritten.tree] ∧ rewritten.stopped = false ∧
        rewritten.rewrites = (rule.calls tree state).countP (·.answer.rewrites) := by
  obtain ⟨tree', stopped, rewrites⟩ := rewritten
  rcases apply_cases goes with ⟨e', failed, plain⟩ | ⟨next, done, plain⟩
  · rw [failed, plain]
    exact ⟨nofun, nofun⟩
  · rw [done, plain]
    constructor
    · intro same
      cases same
      exact ⟨rfl, rfl, rfl⟩
    · rintro ⟨same, rfl, rfl⟩
      cases same
      rfl

/-- A pass that its rule does not end is plain rewriting from the bottom up. -/
theorem apply_bottomUp (rule : Rule σ) (tree : Node) (state : σ)
    (goes : ∀ call ∈ rule.calls tree state, call.answer ≠ .stop) : rule.BottomUp tree state := by
  have account := faithful_rebuild rule tree .root state
  have calls := calls_rebuild goes
  have leaves : (Visitor.leaveNotes.visit .all tree []).2 = tree.postorder .root :=
    congrArg Prod.snd (Visitor.visit_leaveNotes tree)
  have order : (rule.calls tree state).map (·.path) <+: (tree.postorder .root).map (·.path) := by
    rw [← calls]
    exact account.covers.order
  have complete : ∀ rewritten, (rule.apply tree state).1 = .ok rewritten →
      (rule.calls tree state).map (·.path) = (tree.postorder .root).map (·.path) := by
    intro rewritten done
    rw [← calls]
    exact account.covers.complete _ ((apply_eq_ok_iff goes).1 done).1
  exact
    { recorded := apply_recorded rule tree state
      calls
      after := by
        have same : (rule.apply tree state).2 = (rule.recorded.apply tree (state, [])).2.1 :=
          (congrArg (·.2.1) (apply_recorded rule tree state)).symm
        rw [same, apply_state, (agrees_recorded goes).state]
      fails := fun _ => apply_eq_error_iff goes
      succeeds := fun _ => apply_eq_ok_iff goes
      order := leaves ▸ order
      complete := leaves ▸ complete
      reaches := by
        intro rewritten done places node there
        rw [complete rewritten done]
        have mem : (⟨.ofPlaces places, node⟩ : Located) ∈ tree.postorder .root :=
          Node.mem_postorder_iff.2 ⟨places, (Path.root_along places).symm, there⟩
        exact List.mem_map_of_mem mem
      once := order.sublist.nodup (Node.postorder_nodup tree .root)
      subjects := by
        rw [← calls]
        intro call mem
        obtain ⟨node, there, same⟩ := account.seen call mem
        obtain ⟨places, along, found⟩ := Node.mem_postorder_iff.1 there
        exact ⟨places, node, along.trans (Path.root_along places), found, same⟩
      failure := by
        intro e
        rw [apply_eq_error_iff goes, account.accounted.error_iff, calls]
      last := by
        rw [← calls]
        exact account.accounted.fine_dropLast
      root := rewrite_root_ne_removed rule tree { state } }

end Rule

/-! ## A pass with all sorts of answers -/

namespace Sample

/-- The rule that gives answers from a list, and keeps what is left after them. -/
def scripted : Rule (List Answer) := fun _ _ answers => (answers.headD .keep, answers.tail)

def note (text : String) : Node := .leaf { typeName := "Note" } (.string text)

/-- A box with a note, a box with a break, and a break. -/
def nestedBox : Node :=
  .container { typeName := "Box" }
    [ note "a", .container { typeName := "Box" } [.empty { typeName := "Break" }],
      .empty { typeName := "Break" } ]

/-- Replaces the note, removes the inner break, puts a note into the inner box, removes the last
break, and keeps the whole. -/
def answers : List Answer :=
  [.replace (note "b"), .remove, .replaceChildren [note "c"], .remove, .keep]

end Sample

open Sample

theorem Rule.apply_bottomUp_scripted :
    (∀ call ∈ scripted.calls nestedBox answers, call.answer ≠ .stop) ∧
      scripted.BottomUp nestedBox answers ∧
      (scripted.apply nestedBox answers).1 =
        .ok ⟨.container { typeName := "Box" }
          [note "b", .container { typeName := "Box" } [note "c"]], false, 4⟩ := by
  have goes : ∀ call ∈ scripted.calls nestedBox answers, call.answer ≠ .stop := by
    have none : (scripted.calls nestedBox answers).any (·.answer.stops) = false := by rfl
    intro call mem
    exact Answer.stops_eq_false_iff.1 (Bool.eq_false_iff.2 (List.any_eq_false.1 none call mem))
  exact ⟨goes, apply_bottomUp scripted nestedBox answers goes, by rfl⟩

end DocTree
