import DocTree.Engine
import DocTree.Proofs.Validation.Absences

/-!
# Reads of declared fields

A read of a declared field gives the value that the node has or else the default of the type. The
value has passed the check of the document, and the default that of the schema, so either is of the
declared kind. A read gives nothing only where the type declares no default, and the field is
optional or still stands in `data`.

## Main statements

* `Registry.fieldValue?_of_declared` — what a read of a declared field gives.
* `Validator.exists_readsKey_iff` — `data` makes up for a field by one of its keys.
* `Validator.fieldValue_typed` — reads in accepted trees are of the declared kinds.
-/

namespace DocTree

/-- A read of a declared field gives the value of the node, or else the default. -/
theorem Registry.fieldValue?_of_declared {registry : Registry} {schema : Schema} {node : Node}
    {field : String} {spec : FieldSpec} (known : registry.get? node.typeName = some schema)
    (declared : schema.fields.get? field = some spec) :
    registry.fieldValue? node field = (node.field? field).or spec.defaultValue := by
  simp [fieldValue?, known, declared]

namespace Validator

variable {validator : Validator} {schema : Schema}

theorem exists_readsKey_iff {spec : FieldSpec} {data : Option (KeyMap Json)} :
    (∃ key, validator.ReadsKey schema spec data key) ↔
      validator.coversLegacy schema spec data = true := by
  rw [coversLegacy_iff]
  constructor
  · rintro ⟨key, accepted, ⟨since, promoted, recent⟩, entries, rfl, kept⟩
    exact ⟨accepted, ⟨key, since⟩, promoted, recent, kept⟩
  · rintro ⟨accepted, ⟨key, since⟩, promoted, recent, kept⟩
    obtain ⟨entries, present, kept⟩ := (Option.any_eq_true _ _).1 kept
    exact ⟨key, accepted, ⟨since, promoted, recent⟩, entries, present, kept⟩

/-- A field that was read from a key of `data` at a node of an accepted tree was noticed. -/
theorem legacyKeyRead_mem_notices (sound : validator.registry.Sound) {document : Json}
    {tree node : Node} (object : tree.toJson = document) (h : validator.WellFormedAt 0 tree)
    {places : List Nat} (there : tree.at? places = some node)
    (known : validator.registry.get? node.typeName = some schema) {field : String}
    {spec : FieldSpec} (declared : schema.fields.get? field = some spec)
    (required : spec.required = true) (absent : node.field? field = none) {key : String}
    (reads : validator.ReadsKey schema spec node.head.data key) :
    .legacyKeyRead schema.name field key ∈ (validator.validate document).notices := by
  have found := h.at? there
  have unshadowed := found.unshadowed sound
  have notBase := Schema.declared_not_base (sound _ schema known).2.2 declared
  have root : validator.WellFormedAt (Site.root document).depth tree := h
  obtain ⟨site, checked, value, depth⟩ := exists_checked_at? sound root object.symm there
  have opens : validator.Opens site schema node.toMap :=
    ⟨depth ▸ found.shallow, by rw [value, Node.map?_toJson],
      (schemaOf?_toMap unshadowed).trans known⟩
  have gap : validator.HasGap document ⟨site, schema, node.toMap, field, spec⟩ :=
    ⟨checked, opens, declared, required,
      (Node.get?_toMap_of_not_base unshadowed notBase).trans absent⟩
  rw [(notices_perm validator document).mem_iff]
  refine List.mem_map.2 ⟨(_, key), mem_covered_iff.2 ⟨gap, ?_⟩, rfl⟩
  rwa [dataOf?_toMap unshadowed]

/-- **Reads of declared fields are typed.** Every node of an accepted tree is of a registered type,
and a read of a field that the type declares gives a value of the declared kind, or none. It gives
none only if there is no default, and the field is optional or was accepted by its key of `data`,
which was noticed. -/
theorem fieldValue_typed (reachable : validator.registry.Reachable) {document : Json}
    (canonical : document.Canonical) {tree node : Node} {places : List Nat}
    (accepted : (validator.validate document).result = .ok tree)
    (there : tree.at? places = some node) :
    ∃ schema, validator.registry.get? node.typeName = some schema ∧
      ∀ field spec, schema.fields.get? field = some spec →
        (∀ value, validator.registry.fieldValue? node field = some value →
          spec.kind.fits value = true) ∧
        (validator.registry.fieldValue? node field = none →
          spec.defaultValue = none ∧ (spec.required = false ∨
            ∃ key, validator.ReadsKey schema spec node.head.data key ∧
              .legacyKeyRead schema.name field key ∈ (validator.validate document).notices)) := by
  have sound := reachable.sound
  obtain ⟨object, fine⟩ := (result_eq_ok_iff_wellFormed sound canonical).1 accepted
  obtain ⟨schema, known⟩ := (fine.at? there).registered
  have obeys := ((fine.at? there).of_registered known).1
  refine ⟨schema, known, fun field spec declared => ?_⟩
  have defaults := (FieldSpec.flaw?_eq_none_iff.1
    (Schema.field_sound (sound _ schema known).2.2 declared)).2.1
  rw [Registry.fieldValue?_of_declared known declared]
  constructor
  · intro value read
    obtain own | ⟨-, default⟩ := Option.or_eq_some_iff.1 read
    · obtain ⟨same, declared', fits⟩ := obeys.fields field value own
      exact Option.some.inj (declared.symm.trans declared') ▸ fits
    · exact defaults value default
  · intro read
    obtain ⟨absent, noDefault⟩ := Option.or_eq_none_iff.1 read
    refine ⟨noDefault, ?_⟩
    cases required : spec.required with
    | false => exact .inl rfl
    | true =>
      obtain ⟨key, reads⟩ :=
        exists_readsKey_iff.2 (obeys.required field spec declared required absent)
      exact .inr ⟨key, reads, legacyKeyRead_mem_notices sound object fine there known declared
        required absent reads⟩

/-- The label of the figure in the box still stands in `data`: there is none to read, which was
noticed. -/
theorem fieldValue_typed_boxed :
    Sample.registry.Reachable ∧ Sample.boxed.toJson.Canonical ∧
      (Sample.validator.validate Sample.boxed.toJson).result = .ok Sample.boxed ∧
      Sample.boxed.at? [0] = some (Sample.earlyFigure (.string "b")) ∧
      Sample.registry.fieldValue? (Sample.earlyFigure (.string "b")) "label" = none ∧
      .legacyKeyRead "Figure" "label" "label" ∈
        (Sample.validator.validate Sample.boxed.toJson).notices := by
  have reachable : Sample.validator.registry.Reachable := Sample.reachable_registry
  have canonical : Sample.boxed.toJson.Canonical := by decide
  have accepted : (Sample.validator.validate Sample.boxed.toJson).result = .ok Sample.boxed := by
    rfl
  have there : Sample.boxed.at? [0] = some (Sample.earlyFigure (.string "b")) := rfl
  have absent : Sample.registry.fieldValue? (Sample.earlyFigure (.string "b")) "label" = none := rfl
  refine ⟨reachable, canonical, accepted, there, absent, ?_⟩
  obtain ⟨schema, known, reads⟩ := fieldValue_typed reachable canonical accepted there
  obtain rfl : Sample.figure = schema := Option.some.inj known
  obtain ⟨-, optional | ⟨key, readsKey, noticed⟩⟩ := (reads "label" Sample.label rfl).2 absent
  · cases optional
  · obtain ⟨since, promoted, -⟩ := readsKey.promoted
    cases promoted
    exact noticed

end Validator
end DocTree
