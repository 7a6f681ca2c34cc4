import DocTree.Proofs.Migration.Demotion
import DocTree.Proofs.Migration.Steps
import DocTree.Proofs.Node.Written
import DocTree.Proofs.Traversal.Hereditary
import DocTree.Proofs.Validation.Acceptance
import Mathlib.Data.List.Induction

/-!
# Nodes that can be obtained

Nodes are built by constructors and setters, read from documents, put together by passes of rules,
and moved between versions. None of these ways leads to a field under a base key, so that a node is
written as the object that it is.

## Main definitions

* `Node.Obtainable` — the nodes that can be obtained.

## Main statements

* `Node.hereditary_tidy` — passes hand on that trees are tidy.
* `Node.Obtainable.tidy` — what can be obtained is tidy.
* `Node.Obtainable.written_once` — how it is written.
-/

namespace DocTree

/-- The nodes that can be obtained: from constructors and setters with any names and canonical
values; from documents that are accepted; as children of other nodes; from promotions, demotions and
migrations; as nodes that a rule is asked for in a pass, as long as it has answered with such nodes;
and from passes, one or several in a row, of rules that answer with such nodes. -/
inductive Node.Obtainable : Node → Prop
  | leaf (typeName : String) {value : Json} :
      value.Canonical → Obtainable (.leaf { typeName } value)
  | container (typeName : String) {children : List Node} :
      (∀ child ∈ children, Obtainable child) → Obtainable (.container { typeName } children)
  | empty (typeName : String) : Obtainable (.empty { typeName })
  | withField {node : Node} (name : String) {value : Json} :
      Obtainable node → value.Canonical → Obtainable (node.mapHead (·.withField name value))
  | withData {node : Node} {data : KeyMap Json} :
      Obtainable node → (Json.ofMap data).Canonical →
      Obtainable (node.mapHead fun head => { head with data := some data })
  | withDataEntry {node : Node} (key : String) {value : Json} :
      Obtainable node → value.Canonical → Obtainable (node.mapHead (·.withDataEntry key value))
  | child {node child : Node} : Obtainable node → child ∈ node.children → Obtainable child
  | validated {registry : Registry} {settings : ValidationSettings} {raw : Json} {node : Node} :
      registry.Reachable → raw.Canonical →
      (Validator.validate ⟨registry, settings⟩ raw).result = .ok node → Obtainable node
  | promoted {promotion : Promotion} {tree node : Node} :
      Obtainable tree → (promotion.promote tree).result = .ok node → Obtainable node
  | demoted {promotion : Promotion} {tree node : Node} :
      Obtainable tree → (promotion.demote tree).result = .ok node → Obtainable node
  | upgraded {migrations : Migrations} {typeName : String} {earlier later : UInt32}
      {tree node : Node} :
      Obtainable tree → (migrations.upgrade tree typeName earlier later).result = .ok node →
      Obtainable node
  | downgraded {migrations : Migrations} {typeName : String} {earlier later : UInt32}
      {tree node : Node} :
      Obtainable tree → (migrations.downgrade tree typeName later earlier).result = .ok node →
      Obtainable node
  | shown {σ : Type} {rule : Rule σ} {tree : Node} {state : σ} {before after : List Call}
      {call : Call} :
      Obtainable tree → rule.calls tree state = before ++ call :: after →
      (∀ earlier ∈ before, ∀ next ∈ earlier.answer.nodes, Obtainable next) →
      Obtainable call.node
  | rewritten {σ : Type} {rule : Rule σ} {tree : Node} {state : σ} {rewritten : Rewritten} :
      Obtainable tree → (∀ call ∈ rule.calls tree state, ∀ next ∈ call.answer.nodes,
        Obtainable next) →
      (rule.apply tree state).1 = .ok rewritten → Obtainable rewritten.tree
  | piped {σ : Type} {pipeline : Pipeline σ} {tree : Node} {state : σ} {rewritten : Rewritten} :
      Obtainable tree → (∀ call ∈ Pipeline.calls pipeline.passes tree state,
        ∀ next ∈ call.answer.nodes, Obtainable next) →
      (pipeline.run tree state).1 = .ok rewritten → Obtainable rewritten.tree

/-! ## Tidy trees -/

namespace Node

theorem Neat.of_new {node : Node} (fields : node.head.fields = .empty)
    (data : node.head.data = none)
    (value : ∀ value, node.value? = some value → value.Canonical) : node.Neat where
  unshadowed key _ := by
    rw [fields]
    rfl
  canonical := by
    constructor
    · intro key value found
      rw [fields] at found
      cases found
    · intro map found
      rw [data] at found
      cases found
  value := value

/-- Passes hand on that trees are tidy. -/
theorem hereditary_tidy : Hereditary Tidy where
  children tidy := (tidy_iff.1 tidy).2
  withChildren {node children} tidy below := by
    obtain ⟨neat, -⟩ := tidy_iff.1 tidy
    refine tidy_iff.2 ⟨⟨?_, ?_, ?_⟩, ?_⟩
    · rw [head_withChildren]
      exact neat.unshadowed
    · rw [head_withChildren]
      exact neat.canonical
    · cases node <;> exact neat.value
    · cases node with
      | container head _ => exact below
      | leaf head value => exact List.forall_mem_nil _
      | empty head => exact List.forall_mem_nil _

end Node

namespace Migrations

variable {migrations : Migrations} {typeName : String} {steps : Nat} {version : UInt32}
  {tree next : Node}

theorem tidy_upgradeBy (tidy : tree.Tidy)
    (done : (migrations.upgradeBy typeName steps version tree).result = .ok next) : next.Tidy := by
  induction steps generalizing version tree with
  | zero =>
    cases done
    exact tidy
  | succ steps ih =>
    obtain ⟨mapping, promoted, -, promotes, rest⟩ := upgradeBy_succ_eq_ok done
    exact ih (Promotion.tidy_promote tidy promotes) rest

theorem tidy_downgradeBy (tidy : tree.Tidy)
    (done : (migrations.downgradeBy typeName steps version tree).result = .ok next) :
    next.Tidy := by
  induction steps generalizing version tree with
  | zero =>
    cases done
    exact tidy
  | succ steps ih =>
    obtain ⟨mapping, demoted, -, demotes, rest⟩ := downgradeBy_succ_eq_ok done
    exact ih (Promotion.tidy_demote tidy demotes) rest

end Migrations

/-! ## What can be obtained -/

namespace Node.Obtainable

/-- What can be obtained is tidy. -/
theorem tidy {node : Node} (h : node.Obtainable) : node.Tidy := by
  -- By the way in which the node is obtained.
  induction h with
  | leaf typeName canonical =>
    refine tidy_iff.2 ⟨.of_new rfl rfl fun value there => ?_, List.forall_mem_nil _⟩
    exact Option.some.inj there ▸ canonical
  | container typeName _ ih => exact tidy_iff.2 ⟨.of_new rfl rfl nofun, ih⟩
  | empty typeName => exact tidy_iff.2 ⟨.of_new rfl rfl nofun, List.forall_mem_nil _⟩
  | withField name _ canonical ih =>
    have neat := (tidy_iff.1 ih).1
    exact ih.mapHead (neat.unshadowed.withField name _) (neat.canonical.withField name canonical)
  | withData _ canonical ih =>
    have neat := (tidy_iff.1 ih).1
    exact ih.mapHead neat.unshadowed (neat.canonical.withData canonical)
  | withDataEntry key _ canonical ih =>
    have neat := (tidy_iff.1 ih).1
    exact ih.mapHead neat.unshadowed (neat.canonical.withDataEntry key canonical)
  | child _ mem ih => exact (tidy_iff.1 ih).2 _ mem
  | validated reachable canonical accepted =>
    obtain ⟨rfl, wellFormed⟩ :=
      (Validator.result_eq_ok_iff_wellFormed reachable.sound canonical).1 accepted
    exact wellFormed.tidy reachable.sound canonical
  | promoted _ done ih => exact Promotion.tidy_promote ih done
  | demoted _ done ih => exact Promotion.tidy_demote ih done
  | upgraded _ done ih => exact Migrations.tidy_upgradeBy ih done
  | downgraded _ done ih => exact Migrations.tidy_downgradeBy ih done
  | shown _ same _ ih answered => exact hereditary_tidy.shown _ ih _ _ _ _ same answered
  | rewritten _ _ done ih answered => exact hereditary_tidy.apply ih answered done
  | piped _ _ done ih answered => exact hereditary_tidy.applyAll ih answered done

/-- A rule that makes its answers from the nodes that it is shown, and from others that can be
obtained, answers with such nodes in every pass. -/
theorem answered {σ : Type} {rule : Rule σ} {tree : Node} (h : tree.Obtainable)
    (makes : ∀ path node state, node.Obtainable →
      ∀ next ∈ (rule path node state).1.nodes, next.Obtainable) (state : σ) :
    ∀ call ∈ rule.calls tree state, ∀ next ∈ call.answer.nodes, next.Obtainable := by
  have upTo : ∀ before after, rule.calls tree state = before ++ after →
      ∀ call ∈ before, ∀ next ∈ call.answer.nodes, next.Obtainable := by
    intro before
    induction before using List.reverseRecOn with
    | nil => exact fun _ _ => List.forall_mem_nil _
    | append_singleton before last ih =>
      intro after same
      rw [List.append_assoc] at same
      have earlier := ih _ same
      have asked : last.node.Obtainable := .shown h same earlier
      obtain ⟨state, answer⟩ := Rule.exists_of_mem_calls
        (show last ∈ rule.calls tree _ by rw [same]; simp)
      refine List.forall_mem_append.2 ⟨earlier, List.forall_mem_singleton.2 ?_⟩
      rw [← answer]
      exact makes last.path last.node state asked
  exact upTo _ [] (List.append_nil _).symm

/-- **No field stands under a base key, and both written forms agree.** In every node of a tree that
can be obtained, none of the base keys is a field. So the object of the node is written with each of
its keys once, and so are all objects in it; it has as many members as were announced; and what a
reader collects from it is the object of the node. -/
theorem written_once {node : Node} (h : node.Obtainable) {places : List Nat} {found : Node}
    (there : node.at? places = some found) :
    (∀ key ∈ ["type", "children", "value", "data"], found.field? key = none) ∧
    (∃ members, found.written = .object members ∧ (members.map (·.1)).Nodup ∧
      members.length = found.announced) ∧
    found.written.KeysOnce ∧ found.written.collected = found.toJson := by
  have tidy : found.Tidy := fun places below there' =>
    h.tidy _ below ((at?_append node _ places).trans (by rw [there]; exact there'))
  have neat := (tidy_iff.1 tidy).1
  refine ⟨fun key mem => neat.unshadowed key (isBaseKey_iff.2 (by simpa using mem)), ?_,
    tidy.keysOnce, tidy.collected_written⟩
  exact ⟨found.writtenMembers, written_eq found, neat.keys_nodup, length_writtenMembers found⟩

end Node.Obtainable

/-! ## The sample -/

namespace Sample

/-- A rule that stamps every node, under a key of its own and under a base key. -/
def stamping : Rule Unit := fun _ node _ =>
  (.replace ((node.mapHead (·.withField "type" .null)).mapHead (·.withField "stamp" .null)), ())

/-- A figure with its label. -/
def plainFigure : Node :=
  (Node.empty { typeName := "Figure" }).mapHead (·.withField "label" (.string "a"))

/-- The figure with a stamp, which is a field of it only under the key of the rule. -/
def stampedFigure : Node :=
  .empty
    { typeName := "Figure"
      fields := (KeyMap.empty.insert "label" (.string "a")).insert "stamp" .null }

/-- A box with a figure. -/
def plainBox : Node := .container { typeName := "Box" } [plainFigure]

/-- The box with a stamp on it and on the figure. -/
def stampedBox : Node :=
  .container { typeName := "Box", fields := KeyMap.empty.insert "stamp" .null } [stampedFigure]

theorem obtainable_plainBox : plainBox.Obtainable :=
  .container "Box" (List.forall_mem_singleton.2 (.withField "label" (.empty "Figure") trivial))

theorem apply_stamping : (stamping.apply plainBox ()).1 = .ok ⟨stampedBox, false, 2⟩ := by rfl

theorem obtainable_stampedBox : stampedBox.Obtainable := by
  have makes : ∀ path node state, node.Obtainable →
      ∀ next ∈ (stamping path node state).1.nodes, next.Obtainable := by
    intro path node state obtainable
    exact List.forall_mem_singleton.2
      (.withField "stamp" (.withField "type" obtainable trivial) trivial)
  exact .rewritten obtainable_plainBox (obtainable_plainBox.answered makes ()) apply_stamping

end Sample

namespace Node.Obtainable

/-- The stamped figure of the box is written with its type, its label and its stamp. -/
theorem written_once_stamped :
    Sample.stampedBox.Obtainable ∧ Sample.stampedBox.at? [0] = some Sample.stampedFigure ∧
      Sample.stampedFigure.field? "type" = none ∧ Sample.stampedFigure.announced = 3 ∧
      Sample.stampedFigure.written.collected = Sample.stampedFigure.toJson := by
  have there : Sample.stampedBox.at? [0] = some Sample.stampedFigure := by rfl
  obtain ⟨fields, -, -, collected⟩ := written_once Sample.obtainable_stampedBox there
  exact ⟨Sample.obtainable_stampedBox, there, fields "type" List.mem_cons_self, rfl, collected⟩

end Node.Obtainable
end DocTree
