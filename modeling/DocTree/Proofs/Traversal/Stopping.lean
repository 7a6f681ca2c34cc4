import DocTree.Proofs.Traversal.BottomUp

/-!
# Ending a pass

A rule may end its pass at a call. The pass then takes over what it has not come to, and comes to
what it would have come to if the rule had kept everything from that call on.

## Main definitions

* `Answer.Follows` — a list of answers is what calls were answered, up to one that ends the pass.
* `Pass.scripted` — a pass as it stands under the rule that gives answers from a list.

## Main statements

* `Rule.apply_tallied` — the last call alone may end a pass or fail.
* `Rule.rewrite_scripted` — a pass is that of the rule that gives the same answers from a list.
* `Rule.stop_keeps_rest` — to end a pass is to keep all that is left.
-/

namespace DocTree

open Sample (scripted)

/-- Answers from a list are those that calls were given: the same ones in the same order, and none
for a call that ends the pass, nor for any after it. -/
structure Answer.Follows (answers : List Answer) (calls : List Call) : Prop where
  given : ∀ (place : Nat) call, calls[place]? = some call → call.answer ≠ .stop →
    answers.getD place .keep = call.answer
  ended : ∀ (place : Nat) call, calls[place]? = some call → call.answer = .stop →
    answers.length ≤ place

open Answer (Follows)

namespace Answer.Follows

variable {answers : List Answer} {calls more : List Call}

theorem of_prefix (h : Follows answers more)
    (begins : calls <+: more) : Follows answers calls := by
  obtain ⟨later, rfl⟩ := begins
  have among : ∀ {place : Nat} {call}, calls[place]? = some call →
      (calls ++ later)[place]? = some call := fun {place call} found => by
    rw [List.getElem?_append_left (List.getElem?_eq_some_iff.1 found).1, found]
  exact ⟨fun place call found => h.given place call (among found),
    fun place call found => h.ended place call (among found)⟩

/-- The answers before the first one that ends the pass. -/
theorem of_stop {before : List Call} {call : Call}
    (going : ∀ earlier ∈ before, earlier.answer ≠ .stop) (stop : call.answer = .stop) :
    Follows (before.map (·.answer)) (before ++ [call]) where
  given place found here other := by
    by_cases early : place < before.length
    · rw [List.getElem?_append_left early] at here
      rw [List.getD_eq_getElem?_getD, List.getElem?_map, here]
      rfl
    · obtain rfl : found = call := by
        have mem := List.mem_of_getElem? (List.getElem?_append_right (Nat.not_lt.1 early) ▸ here)
        exact List.mem_singleton.1 mem
      exact absurd stop other
  ended place found here stops := by
    rw [List.length_map]
    refine Nat.not_lt.1 fun early => ?_
    rw [List.getElem?_append_left early] at here
    exact going found (List.mem_of_getElem? here) stops

/-- Answers that end nothing, and then to keep all. -/
theorem of_kept (going : ∀ answer ∈ answers, answer ≠ .stop)
    (same : ∀ (place : Nat) call, calls[place]? = some call →
      call.answer = answers.getD place .keep) :
    Follows answers calls ∧ ∀ call ∈ calls, call.answer ≠ .stop := by
  have never : ∀ place : Nat, answers.getD place .keep ≠ .stop := by
    intro place
    rw [List.getD_eq_getElem?_getD]
    cases found : answers[place]? with
    | none => nofun
    | some answer => exact going answer (List.mem_of_getElem? found)
  refine ⟨⟨fun place call found _ => (same place call found).symm, fun place call found stop => ?_⟩,
    fun call mem stop => ?_⟩
  · exact absurd ((same place call found).symm.trans stop) (never place)
  · obtain ⟨place, found⟩ := List.mem_iff_getElem?.1 mem
    exact never place ((same place call found).symm.trans stop)

end Answer.Follows

/-- The pass as it stands under the rule that gives answers from a list: those to the calls so far
are used up, and nothing ends it. -/
def Pass.scripted {σ : Type} (answers : List Answer) (pass : Pass (σ × List Call)) :
    Pass (List Answer) :=
  ⟨answers.drop pass.state.2.length, false, pass.rewrites⟩

namespace Rule

variable {σ τ : Type} {rule : Rule σ} {answers : List Answer}

/-! ## The account of a pass -/

/-- The account of a pass that goes on: no call on it fails, and the last one alone may have ended
the pass. -/
structure Fine (pass : Pass (σ × List Call)) : Prop where
  told : Told pass
  fine : ∀ call ∈ pass.state.2, call.failure? = none
  going : ∀ call ∈ pass.state.2.dropLast, call.answer ≠ .stop

/-- The account of a pass that has failed: the last call fails, and those before do not, nor does
any of them end the pass. -/
def FailsLast (e : RewriteError) (pass : Pass (σ × List Call)) : Prop :=
  ∃ before last, pass.state.2 = before ++ [last] ∧ last.failure? = some e ∧
    ∀ call ∈ before, call.answer ≠ .stop ∧ call.failure? = none

theorem Fine.ask {pass : Pass (σ × List Call)} (h : Fine pass) (rule : Rule σ) (path : Path)
    (node : Node) (rebuilt : Option Node) (going : pass.stopped = false) :
    Meets Fine FailsLast (ask rule.recorded path node rebuilt pass) := by
  have before : ∀ call ∈ pass.state.2, call.answer ≠ .stop := fun call mem => by
    have none := List.any_eq_false.1 (h.told.stopped.symm.trans going) call mem
    exact Answer.stops_eq_false_iff.1 (Bool.eq_false_iff.2 none)
  have told := h.told.ask rule path node rebuilt
  rw [ask_eq] at told ⊢
  dsimp only [recorded] at told ⊢
  generalize rule path (rebuilt.getD node) pass.state.1 = asked at told ⊢
  obtain ⟨answer, state⟩ := asked
  dsimp only at told ⊢
  cases failed : (Call.mk path (rebuilt.getD node) answer).failure? with
  | some e => exact ⟨_, _, rfl, failed, fun call mem => ⟨before call mem, h.fine call mem⟩⟩
  | none =>
    rw [failed] at told
    refine ⟨told, List.forall_mem_append.2 ⟨h.fine, List.forall_mem_singleton.2 failed⟩, ?_⟩
    rwa [List.dropLast_concat]

/-- The account of a pass over a tree. -/
theorem rewrite_fine (rule : Rule σ) (tree : Node) (state : σ) :
    Meets Fine FailsLast (rewrite rule.recorded .root tree { state := (state, []) }) :=
  rewrite_meets (fun path node rebuilt _ going fine => fine.ask rule path node rebuilt going)
    tree .root _ ⟨⟨rfl, fun _ => rfl⟩, List.forall_mem_nil _, List.forall_mem_nil _⟩

/-- What a pass comes to, told by its calls. -/
def Tallied (calls : List Call) : Except RewriteError Rewritten → Prop
  | .ok rewritten => (∀ call ∈ calls, call.failure? = none) ∧
      (∀ call ∈ calls.dropLast, call.answer ≠ .stop) ∧
      rewritten.stopped = calls.any (·.answer.stops) ∧
      rewritten.rewrites = calls.countP (·.answer.rewrites)
  | .error e => ∃ before last, calls = before ++ [last] ∧ last.failure? = some e ∧
      ∀ call ∈ before, call.answer ≠ .stop ∧ call.failure? = none

/-- The last call alone may end a pass or fail, and the pass then is ended or fails. -/
theorem apply_tallied (rule : Rule σ) (tree : Node) (state : σ) :
    Tallied (rule.calls tree state) (rule.apply tree state).1 := by
  have fine := rewrite_fine rule tree state
  have stays := rewrite_root_ne_removed rule.recorded tree { state := (state, []) }
  have same : (rule.apply tree state).1 = (rule.recorded.apply tree (state, [])).1 :=
    (congrArg Prod.fst (apply_recorded rule tree state)).symm
  rw [same, calls_eq, apply]
  generalize rewrite rule.recorded .root tree { state := (state, []) } = made at fine stays ⊢
  obtain ⟨_ | outcome, pass⟩ := made
  · exact fine
  · obtain ⟨⟨stopped, rewrites⟩, fine, going⟩ := fine
    cases outcome with
    | removed => exact absurd rfl stays
    | unchanged => exact ⟨fine, going, stopped, rewrites fine⟩
    | rewritten next => exact ⟨fine, going, stopped, rewrites fine⟩

/-! ## Answers from a list -/

/-- A pass only adds to the account. -/
theorem account_begins_ask (rule : Rule σ) (path : Path) (node : Node) (rebuilt : Option Node)
    (pass : Pass (σ × List Call)) :
    pass.state.2 <+: (ask rule.recorded path node rebuilt pass).2.state.2 := by
  rw [ask_eq]
  dsimp only [recorded]
  split <;> exact List.prefix_append _ _

theorem account_begins_rewriteAll (rule : Rule σ) (path : Path) (place : Nat) (nodes : List Node)
    (pass : Pass (σ × List Call)) :
    pass.state.2 <+: (rewriteAll rule.recorded path place nodes pass).2.state.2 :=
  rewriteAll_invariant (I := fun after : Pass (σ × List Call) => pass.state.2 <+: after.state.2)
    (fun path node rebuilt after _ begins =>
      begins.trans (account_begins_ask rule path node rebuilt after))
    nodes path place pass List.prefix_rfl

theorem told_rewrite {pass : Pass (σ × List Call)} (told : Told pass) (node : Node) (path : Path) :
    Told (rewrite rule.recorded path node pass).2 :=
  rewrite_invariant (fun path node rebuilt _ _ told => told.ask rule path node rebuilt) node path
    pass told

theorem told_rewriteAll {pass : Pass (σ × List Call)} (told : Told pass) (nodes : List Node)
    (path : Path) (place : Nat) : Told (rewriteAll rule.recorded path place nodes pass).2 :=
  rewriteAll_invariant (fun path node rebuilt _ _ told => told.ask rule path node rebuilt) nodes
    path place pass told

/-- A pass that was ended has used up all answers. -/
theorem scripted_of_stopped {pass : Pass (σ × List Call)} (told : Told pass)
    (follows : Follows answers pass.state.2) (ended : pass.stopped = true) :
    pass.scripted answers = ⟨[], false, pass.rewrites⟩ := by
  obtain ⟨call, mem, stops⟩ := List.any_eq_true.1 (told.stopped.symm.trans ended)
  obtain ⟨place, found⟩ := List.mem_iff_getElem?.1 mem
  have stop : call.answer = .stop := by
    cases answer : call.answer <;> simp_all [Answer.stops]
  have used := follows.ended place call found stop
  have bound := (List.getElem?_eq_some_iff.1 found).1
  rw [Pass.scripted, List.drop_eq_nil_of_le (by omega)]

/-- With no answers left, a node is kept. -/
theorem ask_scripted_nil (path : Path) (node : Node) (rebuilt : Option Node) (rewrites : Nat) :
    ask scripted path node rebuilt ⟨[], false, rewrites⟩ =
      (.ok (kept rebuilt), ⟨[], false, rewrites⟩) :=
  rfl

theorem rewriteAll_scripted_nil {nodes : List Node} {rewrites : Nat}
    (below : ∀ node ∈ nodes, ∀ path,
      rewrite scripted path node ⟨[], false, rewrites⟩ = (.ok .unchanged, ⟨[], false, rewrites⟩))
    (path : Path) (place : Nat) :
    rewriteAll scripted path place nodes ⟨[], false, rewrites⟩ =
      (.ok (nodes, false), ⟨[], false, rewrites⟩) := by
  induction nodes generalizing place with
  | nil => rfl
  | cons node nodes ih =>
    obtain ⟨here, later⟩ := List.forall_mem_cons.1 below
    simp only [rewriteAll, here, ih later, gather]

/-- With no answers left, a tree is kept. -/
theorem rewrite_scripted_nil (node : Node) (path : Path) (rewrites : Nat) :
    rewrite scripted path node ⟨[], false, rewrites⟩ = (.ok .unchanged, ⟨[], false, rewrites⟩) := by
  induction node using Node.inductChildren generalizing path with
  | step node ih =>
    rw [rewrite_eq scripted path node rfl, rewriteAll_scripted_nil ih]
    rfl

/-- A call gets its answer from the list. -/
theorem ask_scripted (rule : Rule σ) (path : Path) (node : Node) (rebuilt : Option Node)
    {pass : Pass (σ × List Call)}
    (follows : Follows answers (ask rule.recorded path node rebuilt pass).2.state.2) :
    ask scripted path node rebuilt (pass.scripted answers) =
      (ask rule.recorded path node rebuilt pass).map id (.scripted answers) := by
  rw [ask_eq] at follows
  rw [ask_eq, ask_eq]
  dsimp only [recorded, scripted, Pass.scripted] at follows ⊢
  generalize rule path (rebuilt.getD node) pass.state.1 = asked at follows ⊢
  obtain ⟨answer, state⟩ := asked
  have here : Follows answers (pass.state.2 ++ [⟨path, rebuilt.getD node, answer⟩]) := by
    dsimp only at follows
    split at follows <;> exact follows
  have last : (pass.state.2 ++ [(⟨path, rebuilt.getD node, answer⟩ : Call)])[pass.state.2.length]? =
      some ⟨path, rebuilt.getD node, answer⟩ := List.getElem?_concat_length
  have first : (answers.drop pass.state.2.length).headD .keep =
      answers.getD pass.state.2.length .keep := by
    rw [List.headD_eq_head?_getD, List.head?_drop, List.getD_eq_getElem?_getD]
  rw [first, List.tail_drop]
  by_cases stop : answer = .stop
  · subst stop
    have used := here.ended _ _ last rfl
    rw [List.getD_eq_getElem?_getD, List.getElem?_eq_none used]
    simp [Call.failure?, Call.outcome, Answer.stops, Answer.rewrites, Pass.scripted]
  · rw [here.given _ _ last stop]
    dsimp only
    cases (Call.mk path (rebuilt.getD node) answer).failure? with
    | some e => simp [Pass.scripted]
    | none => simp [Pass.scripted, Answer.stops_eq_false_iff.2 stop]

theorem rewriteAll_scripted {nodes : List Node}
    (below : ∀ node ∈ nodes, ∀ path (pass : Pass (σ × List Call)), Told pass →
      Follows answers (rewrite rule.recorded path node pass).2.state.2 →
      rewrite scripted path node (pass.scripted answers) =
        (rewrite rule.recorded path node pass).map id (.scripted answers))
    (path : Path) (place : Nat) {pass : Pass (σ × List Call)} (told : Told pass)
    (follows : Follows answers (rewriteAll rule.recorded path place nodes pass).2.state.2) :
    rewriteAll scripted path place nodes (pass.scripted answers) =
      (rewriteAll rule.recorded path place nodes pass).map id (.scripted answers) := by
  induction nodes generalizing place pass with
  | nil => rfl
  | cons node nodes ih =>
    obtain ⟨here, later⟩ := List.forall_mem_cons.1 below
    have first := here (path.child place) pass told
    have toldAfter : Told (rewrite rule.recorded (path.child place) node pass).2 :=
      told_rewrite told node _
    rw [rewriteAll] at follows
    rw [rewriteAll, rewriteAll]
    generalize rewrite rule.recorded (path.child place) node pass = made
      at first toldAfter follows ⊢
    obtain ⟨_ | outcome, after⟩ := made
    · rw [first follows]
      rfl
    · have begins := account_begins_rewriteAll rule path (place + 1) nodes after
      have rest := ih later (place + 1) toldAfter
      dsimp only at follows rest begins ⊢
      generalize rewriteAll rule.recorded path (place + 1) nodes after = made
        at begins rest follows ⊢
      obtain ⟨_ | gathered, last⟩ := made
      all_goals
        rw [first (follows.of_prefix begins)]
        dsimp only [Prod.map, id]
        rw [rest follows]
        rfl

/-- A pass is that of the rule that gives the same answers from a list. One that was ended goes on
there, and keeps everything. -/
theorem rewrite_scripted (rule : Rule σ) (node : Node) (path : Path) {pass : Pass (σ × List Call)}
    (told : Told pass)
    (follows : Follows answers (rewrite rule.recorded path node pass).2.state.2) :
    rewrite scripted path node (pass.scripted answers) =
      (rewrite rule.recorded path node pass).map id (.scripted answers) := by
  induction node using Node.inductChildren generalizing path pass with
  | step node ih =>
    cases going : pass.stopped with
    | true =>
      rw [rewrite_of_stopped rule.recorded path node going] at follows ⊢
      dsimp only [Prod.map, id]
      rw [scripted_of_stopped told follows going, rewrite_scripted_nil]
    | false =>
      have toldAfter : Told (rewriteAll rule.recorded path 0 node.children pass).2 :=
        told_rewriteAll told _ _ _
      have children :=
        rewriteAll_scripted (fun child mem path pass => ih child mem path) path 0 told
      rw [rewrite_eq rule.recorded path node going] at follows ⊢
      rw [rewrite_eq scripted path node rfl]
      generalize rewriteAll rule.recorded path 0 node.children pass = made
        at toldAfter children follows ⊢
      obtain ⟨_ | ⟨next, changed⟩, after⟩ := made
      · rw [children follows]
        rfl
      · cases ended : after.stopped with
        | true =>
          -- The rule is not asked any more, and the list has no answer left but to keep the node.
          dsimp only at follows
          rw [if_pos ended] at follows
          rw [children follows]
          dsimp only [Prod.map, id]
          rw [if_pos ended, scripted_of_stopped toldAfter follows ended, ask_scripted_nil]
          rfl
        | false =>
          dsimp only at follows
          rw [if_neg (Bool.eq_false_iff.1 ended)] at follows
          have begins := account_begins_ask rule path node
            (if changed = true then some (node.withChildren next) else none) after
          rw [children (follows.of_prefix begins)]
          dsimp only [Prod.map, id]
          rw [if_neg (Bool.eq_false_iff.1 ended)]
          exact ask_scripted rule path node _ follows

/-! ## Whole passes -/

/-- What a pass comes to when nothing has ended it. -/
def unstopped (rewritten : Rewritten) : Rewritten := { rewritten with stopped := false }

/-- The rule that gives the same answers from a list comes to the same tree, with as many rewrites,
and its pass is not ended. -/
theorem apply_scripted {tree : Node} {state : σ}
    (follows : Follows answers (rule.calls tree state)) :
    (scripted.apply tree answers).1 = (rule.apply tree state).1.map unstopped := by
  have told : Told ({ state := (state, []) } : Pass (σ × List Call)) := ⟨rfl, fun _ => rfl⟩
  rw [calls_eq] at follows
  have same := rewrite_scripted rule tree .root told follows
  have recorded : (rule.apply tree state).1 = (rule.recorded.apply tree (state, [])).1 :=
    (congrArg Prod.fst (apply_recorded rule tree state)).symm
  rw [recorded, apply, apply,
    show ({ state := answers } : Pass (List Answer)) =
      Pass.scripted answers ({ state := (state, []) } : Pass (σ × List Call)) from rfl, same]
  rcases rewrite rule.recorded .root tree { state := (state, []) } with ⟨_ | outcome, after⟩
  · rfl
  · cases outcome <;> rfl

/-- A pass that no call ends is not ended. -/
theorem stopped_eq_false {tree : Node} {state : σ} {rewritten : Rewritten}
    (goes : ∀ call ∈ rule.calls tree state, call.answer ≠ .stop)
    (done : (rule.apply tree state).1 = .ok rewritten) : rewritten.stopped = false := by
  have tallied := apply_tallied rule tree state
  rw [done] at tallied
  rw [tallied.2.2.1, List.any_eq_false]
  exact fun call mem => Bool.eq_false_iff.1 (Answer.stops_eq_false_iff.2 (goes call mem))

/-- A call that ends a pass is the last one, and none before it fails. -/
theorem exists_of_stop {tree : Node} {state : σ} {before after : List Call} {call : Call}
    (calls : rule.calls tree state = before ++ call :: after) (stop : call.answer = .stop) :
    after = [] ∧ (∀ earlier ∈ before, earlier.answer ≠ .stop ∧ earlier.failure? = none) ∧
      ∃ next rewrites, (rule.apply tree state).1 = .ok ⟨next, true, rewrites⟩ := by
  have tallied := apply_tallied rule tree state
  rw [calls] at tallied
  cases made : (rule.apply tree state).1 with
  | error e =>
    rw [made] at tallied
    obtain ⟨earlier, last, same, failed, fine⟩ := tallied
    have mem : call ∈ earlier ++ [last] := same ▸ List.mem_append_right _ List.mem_cons_self
    rcases List.mem_append.1 mem with mem | mem
    · exact absurd stop (fine call mem).1
    · obtain rfl := List.mem_singleton.1 mem
      simp [Call.failure?, stop] at failed
  | ok rewritten =>
    rw [made] at tallied
    obtain ⟨fine, going, stopped, -⟩ := tallied
    obtain rfl : after = [] := by
      cases after with
      | nil => rfl
      | cons next later =>
        rw [List.dropLast_append_of_ne_nil (List.cons_ne_nil _ _), List.dropLast_cons_cons] at going
        exact absurd stop (going call (List.mem_append_right _ List.mem_cons_self))
    rw [List.dropLast_concat] at going
    obtain ⟨next, ended, rewrites⟩ := rewritten
    obtain rfl : ended = true := by simpa [stop, Answer.stops] using stopped
    exact ⟨rfl, fun earlier mem => ⟨going earlier mem, fine earlier (List.mem_append_left _ mem)⟩,
      next, rewrites, rfl⟩

/-- **To end a pass is to keep all that is left.** A call that ends a pass is the last one, and it
is reached without a failure. The pass says that it was ended, and it comes to the tree and the
count of rewrites of every pass in which a rule gives the same answers up to that call and keeps all
from there on, such as the rule that gives these answers from a list. A pass that no call ends does
not say so. -/
theorem stop_keeps_rest (rule : Rule σ) (tree : Node) (state : σ) :
    (∀ before call after, rule.calls tree state = before ++ call :: after → call.answer = .stop →
      after = [] ∧ (∀ earlier ∈ before, earlier.answer ≠ .stop ∧ earlier.failure? = none) ∧
      ∃ next rewrites, (rule.apply tree state).1 = .ok ⟨next, true, rewrites⟩ ∧
        (scripted.apply tree (before.map (·.answer))).1 = .ok ⟨next, false, rewrites⟩ ∧
        ∀ {τ : Type} (other : Rule τ) (start : τ),
          (∀ (place : Nat) call, (other.calls tree start)[place]? = some call →
            call.answer = (before.map (·.answer)).getD place .keep) →
          (other.apply tree start).1 = .ok ⟨next, false, rewrites⟩) ∧
    ((∀ call ∈ rule.calls tree state, call.answer ≠ .stop) →
      ∀ rewritten, (rule.apply tree state).1 = .ok rewritten → rewritten.stopped = false) := by
  refine ⟨fun before call after calls stop => ?_, fun goes rewritten => stopped_eq_false goes⟩
  obtain ⟨rfl, earlier, next, rewrites, done⟩ := exists_of_stop calls stop
  have going : ∀ call ∈ before, call.answer ≠ .stop := fun call mem => (earlier call mem).1
  have given : (scripted.apply tree (before.map (·.answer))).1 = .ok ⟨next, false, rewrites⟩ := by
    have follows : Follows (before.map (·.answer)) (rule.calls tree state) :=
      calls ▸ .of_stop going stop
    rw [apply_scripted follows, done]
    rfl
  refine ⟨rfl, earlier, next, rewrites, done, given, fun other start same => ?_⟩
  obtain ⟨follows, goes⟩ := Follows.of_kept (by simpa using going) same
  rw [apply_scripted follows] at given
  cases made : (other.apply tree start).1 with
  | error e =>
    rw [made] at given
    cases given
  | ok rewritten =>
    rw [made] at given
    obtain ⟨next, ended, rewrites⟩ := rewritten
    obtain rfl : ended = false := stopped_eq_false goes made
    cases given
    rfl

end Rule

/-! ## A pass that is ended -/

namespace Sample

/-- Replaces the note, removes the inner break, and ends the pass at the inner box. -/
def endingAnswers : List Answer := [.replace (note "b"), .remove, .stop, .remove, .remove]

end Sample

open Sample

/-- The pass is ended at the inner box; the break after it stays, and the outer box is rebuilt. -/
theorem Rule.stop_keeps_rest_scripted : ∃ before call,
    scripted.calls nestedBox endingAnswers = before ++ [call] ∧ call.answer = .stop ∧
      call.path = .ofPlaces [1] ∧
      (scripted.apply nestedBox endingAnswers).1 =
        .ok ⟨.container { typeName := "Box" }
          [note "b", .container { typeName := "Box" } [], .empty { typeName := "Break" }],
          true, 2⟩ ∧
      (scripted.apply nestedBox (before.map (·.answer))).1 =
        .ok ⟨.container { typeName := "Box" }
          [note "b", .container { typeName := "Box" } [], .empty { typeName := "Break" }],
          false, 2⟩ := by
  have calls : scripted.calls nestedBox endingAnswers =
      [ ⟨.ofPlaces [0], note "a", .replace (note "b")⟩,
        ⟨.ofPlaces [1, 0], .empty { typeName := "Break" }, .remove⟩ ] ++
      [⟨.ofPlaces [1], .container { typeName := "Box" } [], .stop⟩] := by rfl
  have ended : (scripted.apply nestedBox endingAnswers).1 =
      .ok ⟨.container { typeName := "Box" }
        [note "b", .container { typeName := "Box" } [], .empty { typeName := "Break" }],
        true, 2⟩ := by rfl
  obtain ⟨-, -, next, rewrites, done, kept, -⟩ :=
    (stop_keeps_rest scripted nestedBox endingAnswers).1 _ _ _ calls rfl
  obtain ⟨rfl, -, rfl⟩ := Rewritten.mk.inj (Except.ok.inj (done.symm.trans ended))
  exact ⟨_, _, calls, rfl, rfl, ended, kept⟩

end DocTree
