import DocTree.Proofs.Migration.Paths

/-!
# What is derived from declarations

A schema may declare that several fields were promoted from the same data key in the same version.
The step to that version sends the key to one field, the last of them in the order of names; the
other declarations are passed over. Apart from that nothing is lost, and nothing else comes in, in
whatever order schemas are gone through.

## Main definitions

* `Schema.Promoted` — a field was promoted from a data key in a version.
* `Schema.LastPromoted` — the last of the fields promoted from a data key in a version.

## Main statements

* `Migrations.get?_mappingAt_eq_some_iff` — where a step sends a data key.
* `Migrations.derived_exactly` — what derived steps make of the declarations.
-/

namespace DocTree

namespace Schema

variable {schema : Schema} {version : UInt32} {key field other : String}

/-- The field was promoted from the data key in the version. -/
def Promoted (schema : Schema) (version : UInt32) (key field : String) : Prop :=
  ∃ spec, schema.fields.get? field = some spec ∧ spec.promotedFrom = some ⟨key, version⟩

/-- Of the fields that were promoted from the data key in the version, the last one. -/
structure LastPromoted (schema : Schema) (version : UInt32) (key field : String) : Prop where
  promoted : schema.Promoted version key field
  last : ∀ other, schema.Promoted version key other → other ≤ field

theorem LastPromoted.unique (h : schema.LastPromoted version key field)
    (h' : schema.LastPromoted version key other) : field = other :=
  String.le_antisymm (h'.last field h.promoted) (h.last other h'.promoted)

theorem promotesAt_iff :
    schema.PromotesAt version ↔ ∃ key field, schema.Promoted version key field := by
  constructor
  · rintro ⟨field, spec, ⟨key, _⟩, declared, promoted, rfl⟩
    exact ⟨key, field, spec, declared, promoted⟩
  · rintro ⟨key, field, spec, declared, promoted⟩
    exact ⟨field, spec, _, declared, promoted, rfl⟩

end Schema

namespace Migrations

variable {schema : Schema} {version : UInt32} {key field : String}

/-! ## One step -/

theorem pairwise_promotedFields : (promotedFields schema).Pairwise (·.2.2 < ·.2.2) := by
  refine List.pairwise_filterMap.2 (schema.fields.ordered.imp ?_)
  intro first second before one made other made'
  obtain ⟨origin, -, rfl⟩ := Option.map_eq_some_iff.1 made
  obtain ⟨origin', -, rfl⟩ := Option.map_eq_some_iff.1 made'
  exact before

/-- Fields are mapped in the order of their names. -/
theorem pairwise_promotedPairs :
    (((promotedFields schema).filter (·.1 = version)).map (·.2)).Pairwise (·.2 < ·.2) :=
  List.pairwise_map.2 (pairwise_promotedFields.filter _)

theorem lastPromoted_of_mappingAt (h : (mappingAt schema version).get? key = some field) :
    schema.LastPromoted version key field := by
  have found := (KeyMap.get?_ofList _ key).symm.trans h
  obtain ⟨later, earlier, parts, others⟩ := List.lookup_eq_some_iff.1 found
  -- What comes later in the order of names has other keys, and the rest has earlier names.
  have order := List.pairwise_reverse.2 (@pairwise_promotedPairs schema version)
  have mem : ∀ pair, pair ∈ ((promotedFields schema).filter (·.1 = version)).map (·.2) ↔
      pair ∈ later ++ (key, field) :: earlier := by
    intro pair
    rw [← parts, List.mem_reverse]
  rw [parts] at order
  refine ⟨mem_promotedPairs_iff.1 ((mem _).2 (by simp)), fun other promoted => ?_⟩
  rcases List.mem_append.1 ((mem (key, other)).1 (mem_promotedPairs_iff.2 promoted)) with
    after | rest
  · exact absurd rfl (bne_iff_ne.1 (others _ after))
  · rcases List.mem_cons.1 rest with same | before
    · obtain rfl : other = field := congrArg Prod.snd same
      exact String.le_refl other
    · have earlierName : other < field :=
        (List.pairwise_cons.1 (List.pairwise_append.1 order).2.1).1 _ before
      exact String.not_lt.1 (String.lt_asymm earlierName)

theorem exists_mappingAt_of_promoted (h : schema.Promoted version key field) :
    ∃ kept, (mappingAt schema version).get? key = some kept := by
  refine Option.isSome_iff_exists.1 ?_
  have mem := mem_promotedPairs_iff.2 h
  refine (congrArg Option.isSome (KeyMap.get?_ofList _ key)).trans (List.lookup_isSome_iff.2 ?_)
  exact ⟨(key, field), List.mem_reverse.2 mem, beq_self_eq_true key⟩

/-- A step sends a data key to the last of the fields that were promoted from it. -/
theorem get?_mappingAt_eq_some_iff :
    (mappingAt schema version).get? key = some field ↔ schema.LastPromoted version key field := by
  refine ⟨lastPromoted_of_mappingAt, fun h => ?_⟩
  obtain ⟨kept, sent⟩ := exists_mappingAt_of_promoted h.promoted
  rw [sent, (lastPromoted_of_mappingAt sent).unique h]

theorem eq_mappingAt_iff {mapping : Mapping} : mapping = mappingAt schema version ↔
    ∀ key field, mapping.get? key = some field ↔ schema.LastPromoted version key field := by
  constructor
  · rintro rfl key field
    exact get?_mappingAt_eq_some_iff
  · intro sends
    refine congrArg Mapping.mk (KeyMap.ext_get? fun key => Option.ext fun field => ?_)
    exact (sends key field).trans get?_mappingAt_eq_some_iff.symm

/-! ## All steps -/

variable {registry : Registry} {schemas : List Schema} {typeName : String} {mapping : Mapping}

/-- **What is derived from declarations.** Whatever the order in which the schemas of a registry are
gone through, there is a step of a type from a version exactly when a field of the type was promoted
in the version after it, and the step sends a data key to a field exactly when the field is the last
of those that were promoted from the key in that version. So each declaration of a field, but for
version 0, leads to a step that sends the data key of the field to the field, unless a later field
was promoted from the same key in the same version: then the key is sent to the last of these
fields, and the declaration is passed over. -/
theorem derived_exactly (reachable : registry.Reachable)
    (order : schemas.Perm registry.schemas.values) :
    (∀ typeName version, (addSchemas schemas {}).result.mapping? typeName version =
        (ofRegistry registry).result.mapping? typeName version) ∧
      (∀ typeName version mapping,
        (addSchemas schemas {}).result.mapping? typeName version = some mapping ↔
          ∃ schema, registry.get? typeName = some schema ∧
            (∃ key field, schema.Promoted (version + 1) key field) ∧ version + 1 ≠ 0 ∧
            ∀ key field, mapping.get? key = some field ↔
              schema.LastPromoted (version + 1) key field) ∧
      ∀ typeName schema version key field, registry.get? typeName = some schema → version ≠ 0 →
        schema.Promoted version key field →
          ∃ mapping kept,
            (addSchemas schemas {}).result.mapping? typeName (version - 1) = some mapping ∧
            mapping.get? key = some kept ∧ schema.LastPromoted version key kept ∧
            (kept = field ↔ ∀ other, schema.Promoted version key other → other ≤ field) := by
  refine ⟨fun typeName version => Option.ext fun mapping => ?_,
    fun typeName version mapping => ?_,
    fun typeName schema version key field known notFirst promoted => ?_⟩
  · rw [mapping?_addSchemas_eq_some_iff reachable.sound order]
    exact (mapping?_addSchemas_eq_some_iff reachable.sound (List.Perm.refl _)).symm
  · rw [mapping?_addSchemas_eq_some_iff reachable.sound order]
    simp only [Schema.promotesAt_iff, eq_mappingAt_iff]
  · have after : version - 1 + 1 = version := UInt32.sub_add_cancel version 1
    obtain ⟨kept, sent⟩ := exists_mappingAt_of_promoted promoted
    have last := get?_mappingAt_eq_some_iff.1 sent
    refine ⟨mappingAt schema version, kept,
      (mapping?_addSchemas_eq_some_iff reachable.sound order).2 ⟨schema, known, ?_⟩, sent, last, ?_⟩
    · rw [after]
      exact ⟨Schema.promotesAt_iff.2 ⟨key, field, promoted⟩, notFirst, rfl⟩
    · constructor
      · rintro rfl
        exact last.last
      · exact fun latest => last.unique ⟨promoted, latest⟩

end Migrations

/-! ## The sample -/

namespace Sample

/-- Figures whose captions and labels were both promoted from the same data key. -/
def twofold : Schema := figure.withField "caption" label

/-- A registry of these figures. -/
def twofoldRegistry : Registry := ⟨KeyMap.empty.insert "Figure" twofold⟩

theorem reachable_twofoldRegistry : twofoldRegistry.Reachable :=
  have figures : Registry.empty.register twofold = .ok (.inserted, twofoldRegistry) := by rfl
  Registry.Reachable.empty.register figures

end Sample

namespace Migrations

/-- Figures got their labels in their second version. The step to it is the same when boxes are gone
through last. -/
theorem derived_exactly_figure :
    Sample.registry.Reachable ∧
      [Sample.figure, Sample.box].Perm Sample.registry.schemas.values ∧
      (addSchemas [Sample.figure, Sample.box] {}).result.mapping? "Figure" 1 =
        (ofRegistry Sample.registry).result.mapping? "Figure" 1 ∧
      ∃ mapping, (addSchemas [Sample.figure, Sample.box] {}).result.mapping? "Figure" 1 =
        some mapping ∧ mapping.get? "label" = some "label" := by
  have order : [Sample.figure, Sample.box].Perm Sample.registry.schemas.values :=
    List.Perm.swap Sample.box Sample.figure []
  have promoted : Sample.figure.Promoted 2 "label" "label" := ⟨Sample.label, rfl, rfl⟩
  obtain ⟨sameSteps, -, kept⟩ := derived_exactly Sample.reachable_registry order
  obtain ⟨mapping, field, step, sent, -, last⟩ :=
    kept "Figure" Sample.figure 2 "label" "label" rfl (by decide) promoted
  have only : field = "label" := last.2 fun other ⟨_, declared, _⟩ =>
    (Sample.fields_figure declared).1 ▸ String.le_refl _
  exact ⟨Sample.reachable_registry, order, sameSteps _ _, mapping, step, only ▸ sent⟩

/-- When captions and labels were promoted from the same data key in the second version, the step to
it sends the key to labels only. A figure that still has the key is accepted, and the upgrade leaves
it without the caption that it must have. -/
theorem derived_passes_over :
    Sample.twofoldRegistry.Reachable ∧
      Sample.twofoldRegistry.get? "Figure" = some Sample.twofold ∧
      Sample.twofold.Promoted 2 "label" "caption" ∧
      (∃ mapping, (ofRegistry Sample.twofoldRegistry).result.mapping? "Figure" 1 = some mapping ∧
        mapping.get? "label" = some "label") ∧
      (Validator.mk Sample.twofoldRegistry {}).violations
        (Sample.earlyFigure (.string "a")).toJson = [] ∧
      ((ofRegistry Sample.twofoldRegistry).result.upgrade
        (Sample.earlyFigure (.string "a")) "Figure" 1 2).result =
          .ok (Sample.lateFigure (.string "a")) ∧
      (Validator.mk Sample.twofoldRegistry {}).violations (Sample.lateFigure (.string "a")).toJson =
        [(Breach.fieldAbsent "caption").violation .root (some "Figure")] := by
  refine ⟨Sample.reachable_twofoldRegistry, rfl, ⟨Sample.label, rfl, rfl⟩, ⟨_, rfl, rfl⟩, ?_, ?_,
    ?_⟩ <;> rfl

end Migrations
end DocTree
