import DocTree.Proofs.Migration.Returning
import DocTree.Proofs.Migration.Validity
import DocTree.Proofs.Validation.Shedding

/-!
# Demoted documents

A demotion takes fields from nodes and lets their `data` grow. So all that can be wrong with a
demoted document is that a node of the type lacks a required field that the demotion took from it,
where `data` does not make up for it: the field was not promoted within the window, or its value
went to another key than the one it was promoted from.

## Main definitions

* `Validator.Deprives` — a demotion takes a required field that `data` does not make up for.

## Main statements

* `Mapping.Demoted.sheds` — a demotion takes fields away.
* `Validator.deprives_of_lack` — a field that is missing after a demotion has been taken by it.
* `Validator.deprives_of_mem_violations` — the violations of a demoted document.
* `Engine.violations_of_demote` — what a demoted document is charged with, and when it is accepted.
-/

namespace DocTree

variable {validator : Validator} {schema : Schema} {mapping : Mapping}

theorem Mapping.Demoted.sheds {pairs : List (String × String)} {head next : Head}
    (h : Demoted pairs head next) : head.Sheds next :=
  ⟨h.typeName, fun _ _ found => (h.get?_fields found).1⟩

namespace Validator

/-- A demotion of a tree takes a required field of the type from a node of it, and the `data` that
is then there does not make up for the field. -/
def Deprives (validator : Validator) (schema : Schema) (mapping : Mapping) (tree demoted : Node)
    (places : List Nat) (field : String) : Prop :=
  ∃ node left spec, tree.at? places = some node ∧ node.typeName = schema.name ∧
    demoted.at? places = some left ∧ field ∈ mapping.targets ∧
    schema.fields.get? field = some spec ∧ spec.required = true ∧
    (∃ value, node.field? field = some value) ∧ left.field? field = none ∧
    validator.coversLegacy schema spec left.head.data = false

/-- A required field that is missing after a demotion was there before, and has been taken. Where it
was absent before, `data` made up for it, and has only grown. -/
theorem deprives_of_lack {node : Node} {next : Head} {field : String} {spec : FieldSpec}
    (obeys : validator.Obeys schema node) (demoted : Mapping.Demoted mapping.pairs node.head next)
    (declared : schema.fields.get? field = some spec) (required : spec.required = true)
    (absent : next.fields.get? field = none)
    (uncovered : validator.coversLegacy schema spec next.data = false) :
    field ∈ mapping.targets ∧ ∃ value, node.field? field = some value := by
  have held : ∃ value, node.field? field = some value := by
    refine Option.ne_none_iff_exists'.1 fun before => ?_
    have covered := obeys.required field spec declared required before
    have kept := coversLegacy_of_grown covered fun key value found => by
      rw [demoted.data, found, Option.some_or]
    cases uncovered.symm.trans kept
  refine ⟨?_, held⟩
  obtain ⟨value, found⟩ := held
  rw [demoted.fields, Mapping.get?_unmapped] at absent
  split at absent
  · rename_i mapped
    obtain ⟨pair, mem, same⟩ := List.any_eq_true.1 mapped
    exact List.mem_map.2 ⟨pair, mem, eq_of_beq same⟩
  · cases found.symm.trans absent

variable {tree demoted : Node}

theorem sheds_of_demoted {typeName : String} {change : Head → Head}
    (changed : ∀ places node, tree.at? places = some node →
      (node.typeName = typeName → Mapping.Demoted mapping.pairs node.head (change node.head)) ∧
        (node.typeName ≠ typeName → change node.head = node.head)) : tree.Sheds change := by
  intro places node there
  by_cases typed : node.typeName = typeName
  · exact ((changed places node there).1 typed).sheds
  · rw [(changed places node there).2 typed]
    exact node.sheds_id [] node rfl

/-- All that a demoted document is charged with are fields that the demotion has taken. -/
theorem deprives_of_mem_violations (sound : validator.registry.Sound)
    (wellFormed : validator.WellFormedAt 0 tree)
    (known : validator.registry.get? schema.name = some schema)
    (changed : tree.ChangedIn schema.name (Mapping.Demoted mapping.pairs) demoted)
    {violation : Violation} (mem : violation ∈ validator.violations demoted.toJson) :
    ∃ places field, validator.Deprives schema mapping tree demoted places field ∧
      violation = (Breach.fieldAbsent field).violation (.ofPlaces places) (some schema.name) := by
  obtain ⟨change, rfl, changed⟩ := changed
  obtain ⟨places, node, own, field, spec, there, registered, obeys, declared, required, absent,
    uncovered, rfl⟩ :=
      lacks_of_mem_violations_shed sound wellFormed (sheds_of_demoted changed) mem
  rw [Node.field?, Node.head_mapHeads] at absent
  rw [Node.head_mapHeads] at uncovered
  by_cases typed : node.typeName = schema.name
  · obtain rfl : own = schema :=
      Option.some.inj (registered.symm.trans ((congrArg _ typed).trans known))
    obtain ⟨mapped, held⟩ := deprives_of_lack obeys ((changed places node there).1 typed)
      declared required absent uncovered
    have left : (tree.mapHeads change).at? places = some (node.mapHeads change) := by
      rw [Node.at?_mapHeads, there]
      rfl
    refine ⟨places, field, ⟨node, _, spec, there, typed, left, mapped, declared, required, held,
      ?_, ?_⟩, rfl⟩
    · rwa [Node.field?, Node.head_mapHeads]
    · rwa [Node.head_mapHeads]
  · -- Nodes of other types are as they were, and lacked nothing.
    rw [(changed places node there).2 typed] at absent uncovered
    exact absurd (obeys.required field spec declared required absent)
      (Bool.eq_false_iff.1 uncovered)

/-- A demoted tree is not well formed when the demotion has taken such a field. -/
theorem not_deprives_of_wellFormedAt (wellFormed : validator.WellFormedAt 0 demoted)
    (known : validator.registry.get? schema.name = some schema)
    (changed : tree.ChangedIn schema.name (Mapping.Demoted mapping.pairs) demoted)
    (places : List Nat) (field : String) :
    ¬validator.Deprives schema mapping tree demoted places field := by
  rintro ⟨node, left, spec, there, typed, below, -, declared, required, -, absent, uncovered⟩
  obtain ⟨change, rfl, changed⟩ := changed
  have same : left = node.mapHeads change := by
    rw [Node.at?_mapHeads, there] at below
    exact (Option.some.inj below).symm
  have typed' : left.typeName = schema.name :=
    same ▸ (((sheds_of_demoted changed).at? there).head.typeName.trans typed)
  obtain ⟨obeys, -⟩ := (wellFormed.at? below).of_registered ((congrArg _ typed').trans known)
  cases uncovered.symm.trans (obeys.required field spec declared required absent)

end Validator

/-! ## The sample -/

namespace Sample

/-- Labels go to another key than the one they were promoted from. -/
def titles : Mapping := .ofPairs [("title", "label")]

/-- The sample with the label of the child under that key. -/
def titledBox : Node :=
  .container boxed.head
    [ .empty
        { typeName := "Figure", data := some (KeyMap.empty.insert "title" (.string "b")) } ]

end Sample

/-! ## Engines -/

namespace Engine

variable {engine : Engine} {tree demoted : Node} {typeName : String}

/-- **What a demotion can do to validity.** All that a demoted document is charged with is that a
node of the type, at a place of the tree, lacks a required field in the range of the mapping that it
had before, and that what the field was promoted from does not excuse. The document is accepted, as
the demoted tree, exactly when there is no such node; so it is when the type requires none of the
demoted fields. -/
theorem violations_of_demote (reachable : engine.registry.Reachable) (parsed : engine.Parsed tree)
    (done : (engine.demote tree typeName mapping).result = .ok demoted) :
    ∃ schema, engine.registry.get? typeName = some schema ∧ schema.name = typeName ∧
      (∀ violation ∈ engine.validator.violations demoted.toJson, ∃ places field,
        engine.validator.Deprives schema mapping tree demoted places field ∧
        violation =
          (Breach.fieldAbsent field).violation (.ofPlaces places) (some typeName)) ∧
      ((engine.parseValue demoted.toJson).result = .ok demoted ↔
        ∀ places field, ¬engine.validator.Deprives schema mapping tree demoted places field) ∧
      ((∀ field ∈ mapping.targets, ∀ spec, schema.fields.get? field = some spec →
          spec.required = false) →
        (engine.parseValue demoted.toJson).result = .ok demoted) := by
  have sound := reachable.sound
  obtain ⟨wellFormed, canonical⟩ := parsed.wellFormed sound
  obtain ⟨schema, known, -, ran⟩ := move_eq_ok done
  obtain ⟨rfl, -⟩ := sound _ schema known
  have tidy := Promotion.tidy_demote (wellFormed.tidy sound canonical) ran
  have changed := (Promotion.changedIn_demoted ran).mono fun _ _ moved => moved.1
  have charges := fun violation (mem : violation ∈ engine.validator.violations demoted.toJson) =>
    Validator.deprives_of_mem_violations sound wellFormed known changed mem
  have accepted : (∀ places field,
      ¬engine.validator.Deprives schema mapping tree demoted places field) →
        (engine.parseValue demoted.toJson).result = .ok demoted := by
    intro none
    have clean : engine.validator.violations demoted.toJson = [] := by
      refine List.eq_nil_iff_forall_not_mem.2 fun violation mem => ?_
      obtain ⟨places, field, deprives, -⟩ := charges violation mem
      exact none places field deprives
    exact result_validate_eq_ok_iff.2 (Validator.result_eq_ok_of_clean sound tidy clean)
  refine ⟨schema, known, rfl, charges, ⟨fun again => ?_, accepted⟩, fun optional => accepted ?_⟩
  · have canonical' := (Node.tidy_iff_canonical.1 tidy).2
    obtain ⟨-, wellFormed'⟩ := (Validator.result_eq_ok_iff_wellFormed sound canonical').1
      (result_validate_eq_ok_iff.1 again)
    exact Validator.not_deprives_of_wellFormedAt wellFormed' known changed
  · rintro places field ⟨node, left, spec, -, -, -, mapped, declared, required, -⟩
    exact Bool.false_ne_true ((optional field mapped spec declared).symm.trans required)

/-- When labels go back to the key they were promoted from, the demoted sample is accepted. When
they go to another one, the figure at place 0 is charged with its missing label. -/
theorem violations_of_demote_boxed :
    Sample.engine.registry.Reachable ∧ Sample.engine.Parsed Sample.promotedBox ∧
      (Sample.engine.demote Sample.promotedBox "Figure" Sample.titles).result =
        .ok Sample.titledBox ∧
      Sample.engine.validator.violations Sample.titledBox.toJson =
        [(Breach.fieldAbsent "label").violation (.ofPlaces [0]) (some "Figure")] ∧
      (∃ schema places field, Sample.engine.registry.get? "Figure" = some schema ∧
        Sample.engine.validator.Deprives schema Sample.titles Sample.promotedBox Sample.titledBox
          places field) ∧
      (Sample.engine.demote Sample.promotedBox "Figure" Sample.labels).result =
        .ok Sample.boxed ∧
      ∃ schema, Sample.engine.registry.get? "Figure" = some schema ∧
        ∀ places field, ¬Sample.engine.validator.Deprives schema Sample.labels
          Sample.promotedBox Sample.boxed places field := by
  have reachable : Sample.engine.registry.Reachable := Sample.reachable_registry
  have parsed : Sample.engine.Parsed Sample.promotedBox :=
    .value (show Sample.promotedBox.toJson.Canonical by decide) rfl
  have titled : (Sample.engine.demote Sample.promotedBox "Figure" Sample.titles).result =
      .ok Sample.titledBox := by rfl
  have labelled : (Sample.engine.demote Sample.promotedBox "Figure" Sample.labels).result =
      .ok Sample.boxed := by rfl
  have violations : Sample.engine.validator.violations Sample.titledBox.toJson =
      [(Breach.fieldAbsent "label").violation (.ofPlaces [0]) (some "Figure")] := by rfl
  obtain ⟨schema, known, -, charges, -⟩ := violations_of_demote reachable parsed titled
  obtain ⟨places, field, deprives, -⟩ := charges _ (violations ▸ List.mem_singleton_self _)
  obtain ⟨schema', known', -, -, accepted, -⟩ := violations_of_demote reachable parsed labelled
  exact ⟨reachable, parsed, titled, violations, ⟨schema, places, field, known, deprives⟩, labelled,
    schema', known', accepted.1 rfl⟩

end Engine
end DocTree
