import DocTree.Proofs.Migration.Ranges
import DocTree.Proofs.Migration.Upgrade
import DocTree.Proofs.Validation.Registration

/-!
# Paths of derived steps

A schema declares a step to each version in which it promoted fields, and to no other. So the
derived steps lead from one version to another when the schema promoted fields in each version on
the way. A version that came about in another way interrupts the path.

## Main definitions

* `Schema.PromotesAt` — a schema promoted a field in a version.

## Main statements

* `Migrations.hasPath_iff` — there is a path when there is a step from each version on the way.
* `Migrations.mapping?_addSchemas_eq_some_iff` — the derived steps, for any order of the schemas.
* `Migrations.hasPath_ofRegistry_iff` — the paths of derived steps, and what they are good for.
-/

namespace DocTree

/-- A field of the schema was promoted in the version. -/
def Schema.PromotesAt (schema : Schema) (version : UInt32) : Prop :=
  ∃ field spec origin, schema.fields.get? field = some spec ∧ spec.promotedFrom = some origin ∧
    origin.sinceVersion = version

namespace Migrations

variable {migrations : Migrations} {typeName : String} {version later : UInt32} {steps : Nat}

/-! ## Paths -/

/-- There are so many steps in a row when there is one from each version. -/
theorem hasSteps_iff (order : version.toNat + steps = later.toNat) :
    migrations.hasSteps typeName steps version = true ↔
      ∀ between, version ≤ between → between < later →
        ∃ mapping, migrations.mapping? typeName between = some mapping := by
  simp only [hasSteps_eq_all order, List.all_eq_true, mem_versions_iff, and_imp,
    Option.isSome_iff_exists]

theorem hasPath_eq_hasSteps {earlier : UInt32} (forward : earlier ≤ later) :
    migrations.hasPath typeName earlier later =
      migrations.hasSteps typeName (later.toNat - earlier.toNat) earlier := by
  have low : min earlier later = earlier := if_pos forward
  have high : max earlier later = later := if_pos forward
  simp only [hasPath, low, high]

/-- There is a path between two versions when there is a step from each version on the way. -/
theorem hasPath_iff {earlier : UInt32} (forward : earlier ≤ later) :
    migrations.hasPath typeName earlier later = true ↔
      ∀ version, earlier ≤ version → version < later →
        ∃ mapping, migrations.mapping? typeName version = some mapping := by
  have order := UInt32.le_iff_toNat_le.1 forward
  rw [hasPath_eq_hasSteps forward]
  exact hasSteps_iff (by omega)

/-! ## Chains over paths -/

/-- Where there is a step from each version, none is missing. -/
theorem upgradeBy_ne_missingStep (path : migrations.hasSteps typeName steps version = true)
    {tree : Node} {name : String} {missing : UInt32} :
    (migrations.upgradeBy typeName steps version tree).result ≠
      .error (.missingStep name missing) := by
  induction steps generalizing version tree with
  | zero => exact nofun
  | succ steps ih =>
    obtain ⟨first, rest⟩ := Bool.and_eq_true_iff.1 path
    obtain ⟨mapping, known⟩ := Option.isSome_iff_exists.1 first
    unfold upgradeBy step
    rw [known]
    dsimp only
    split
    · exact ih rest
    · exact Promotion.run_ne_missingStep

/-- Where a chain of steps has been made, there was a step from each version. -/
theorem hasSteps_of_upgradeBy {tree upgraded : Node}
    (done : (migrations.upgradeBy typeName steps version tree).result = .ok upgraded) :
    migrations.hasSteps typeName steps version = true := by
  induction steps generalizing version tree with
  | zero => rfl
  | succ steps ih =>
    obtain ⟨mapping, promoted, known, -, rest⟩ := upgradeBy_succ_eq_ok done
    rw [hasSteps, known, ih rest]
    rfl

/-! ## Derived steps -/

variable {schema : Schema} {mapping : Mapping}

theorem mem_promotingVersions_iff :
    version ∈ promotingVersions schema ↔ schema.PromotesAt version := by
  simp only [promotingVersions, List.mem_eraseDups, List.mem_map, Prod.exists,
    mem_promotedFields_iff, exists_and_right, exists_eq_right]
  constructor
  · rintro ⟨key, field, spec, declared, promoted⟩
    exact ⟨field, spec, _, declared, promoted, rfl⟩
  · rintro ⟨field, spec, ⟨key, _⟩, declared, promoted, rfl⟩
    exact ⟨key, field, spec, declared, promoted⟩

/-- The step to a version starts from the version before, and there is none to version 0. -/
theorem mapping?_addVersion (migrations : Migrations) (since : UInt32) :
    (addVersion schema migrations since).result.mapping? typeName version =
      if typeName = schema.name ∧ since = version + 1 ∧ since ≠ 0 then some (mappingAt schema since)
      else migrations.mapping? typeName version := by
  unfold addVersion
  by_cases first : since = 0
  · simp [first]
  · have notLast : since - 1 ≠ lastVersion := by
      intro last
      exact first (by rw [← UInt32.sub_add_cancel since 1, last]; rfl)
    have before : version = since - 1 ↔ since = version + 1 := by grind
    simp [first, mapping?_add, notLast, before]

theorem mapping?_addVersions (migrations : Migrations) (versions : List UInt32) :
    (addVersions schema versions migrations).result.mapping? typeName version =
      if typeName = schema.name ∧ version + 1 ∈ versions ∧ version + 1 ≠ 0 then
        some (mappingAt schema (version + 1))
      else migrations.mapping? typeName version := by
  induction versions generalizing migrations with
  | nil => simp [addVersions]
  | cons since versions ih =>
    simp only [addVersions, ih, mapping?_addVersion]
    grind

/-- Schemas of different types do not touch each other's steps. -/
theorem mapping?_addSchemas_of_ne {schemas : List Schema}
    (others : ∀ schema ∈ schemas, schema.name ≠ typeName) (migrations : Migrations) :
    (addSchemas schemas migrations).result.mapping? typeName version =
      migrations.mapping? typeName version := by
  induction schemas generalizing migrations with
  | nil => rfl
  | cons schema schemas ih =>
    obtain ⟨here, later⟩ := List.forall_mem_cons.1 others
    simp [addSchemas, ih later, mapping?_addVersions, Ne.symm here]

theorem mapping?_addSchemas {schemas : List Schema} (mem : schema ∈ schemas)
    (apart : (schemas.map (·.name)).Nodup) (migrations : Migrations) :
    (addSchemas schemas migrations).result.mapping? schema.name version =
      if version + 1 ∈ promotingVersions schema ∧ version + 1 ≠ 0 then
        some (mappingAt schema (version + 1))
      else migrations.mapping? schema.name version := by
  induction schemas generalizing migrations with
  | nil => cases mem
  | cons first schemas ih =>
    obtain ⟨other, apart⟩ := List.nodup_cons.1 apart
    have differ : ∀ schema ∈ schemas, schema.name ≠ first.name := fun schema mem same =>
      other (List.mem_map.2 ⟨schema, mem, same⟩)
    rcases List.mem_cons.1 mem with rfl | mem
    · simp [addSchemas, mapping?_addSchemas_of_ne differ, mapping?_addVersions]
    · simp [addSchemas, ih mem apart, mapping?_addVersions, differ schema mem]

variable {registry : Registry}

theorem names_values (sound : registry.Sound) :
    registry.schemas.values.map (·.name) = registry.schemas.keys := by
  rw [KeyMap.values, List.map_map]
  refine List.map_congr_left fun entry mem => ?_
  exact (sound entry.1 entry.2 (KeyMap.mem_entries_iff.1 mem)).1

/-- In whatever order the schemas of a registry are gone through, there is the step of a type to
each version, but the first one, in which its schema promoted fields. -/
theorem mapping?_addSchemas_eq_some_iff (sound : registry.Sound) {schemas : List Schema}
    (order : schemas.Perm registry.schemas.values) :
    (addSchemas schemas {}).result.mapping? typeName version = some mapping ↔
      ∃ schema, registry.get? typeName = some schema ∧ schema.PromotesAt (version + 1) ∧
        version + 1 ≠ 0 ∧ mapping = mappingAt schema (version + 1) := by
  have apart : (schemas.map (·.name)).Nodup :=
    (order.map _).nodup_iff.2 (names_values sound ▸ registry.schemas.keys_nodup)
  have named : ∀ schema ∈ schemas, registry.get? schema.name = some schema := by
    intro schema mem
    obtain ⟨name, known⟩ := KeyMap.mem_values_iff.1 (order.mem_iff.1 mem)
    exact (sound name schema known).1 ▸ known
  cases known : registry.get? typeName with
  | none =>
    have others : ∀ schema ∈ schemas, schema.name ≠ typeName := by
      rintro schema mem rfl
      cases known.symm.trans (named schema mem)
    rw [mapping?_addSchemas_of_ne others]
    exact iff_of_false nofun fun ⟨_, found, _⟩ => nomatch found
  | some schema =>
    obtain ⟨rfl, -⟩ := sound _ _ known
    have mem := order.mem_iff.2 (KeyMap.mem_values_iff.2 ⟨_, known⟩)
    have only : (∃ found, some schema = some found ∧ found.PromotesAt (version + 1) ∧
        version + 1 ≠ 0 ∧ mapping = mappingAt found (version + 1)) ↔
        (schema.PromotesAt (version + 1) ∧ version + 1 ≠ 0) ∧
          mapping = mappingAt schema (version + 1) := by
      simp [and_assoc]
    rw [mapping?_addSchemas mem apart, only, ← mem_promotingVersions_iff]
    split
    · rename_i promotes
      simp [promotes, eq_comm]
    · rename_i nothing
      exact iff_of_false nofun fun h => nothing h.1

/-- The derived steps of a type are those to the versions, but not to the first one, in which its
schema promoted fields. -/
theorem mapping?_ofRegistry_eq_some_iff (sound : registry.Sound)
    (known : registry.get? typeName = some schema) :
    (ofRegistry registry).result.mapping? typeName version = some mapping ↔
      schema.PromotesAt (version + 1) ∧ version + 1 ≠ 0 ∧
        mapping = mappingAt schema (version + 1) := by
  rw [ofRegistry, mapping?_addSchemas_eq_some_iff sound (List.Perm.refl _)]
  simp [known]

/-- **Where derived steps lead.** There is a path of derived steps between two versions of a type
exactly when the schema of the type promoted a field in each version after the earlier one, up to
the later one. An upgrade along a path never misses a step, and no upgrade gets to its end without
one. -/
theorem hasPath_ofRegistry_iff (reachable : registry.Reachable)
    (known : registry.get? typeName = some schema) {earlier : UInt32} (forward : earlier ≤ later) :
    ((ofRegistry registry).result.hasPath typeName earlier later = true ↔
        ∀ version, earlier < version → version ≤ later → schema.PromotesAt version) ∧
      ((ofRegistry registry).result.hasPath typeName earlier later = true →
        ∀ tree name missing,
          ((ofRegistry registry).result.upgrade tree typeName earlier later).result ≠
            .error (.missingStep name missing)) ∧
      ∀ tree upgraded,
        ((ofRegistry registry).result.upgrade tree typeName earlier later).result = .ok upgraded →
          (ofRegistry registry).result.hasPath typeName earlier later = true := by
  refine ⟨?_, fun path tree name missing =>
    upgradeBy_ne_missingStep (hasPath_eq_hasSteps forward ▸ path), fun tree upgraded done =>
    (hasPath_eq_hasSteps forward).trans (hasSteps_of_upgradeBy done)⟩
  rw [hasPath_iff forward]
  constructor
  · intro steps version after within
    have before : version - 1 + 1 = version := UInt32.sub_add_cancel version 1
    obtain ⟨mapping, step⟩ := steps (version - 1) (by grind) (by grind)
    have promotes := ((mapping?_ofRegistry_eq_some_iff reachable.sound known).1 step).1
    rwa [before] at promotes
  · intro promotes version start stop
    have next : version + 1 ≠ 0 := by grind
    exact ⟨_, (mapping?_ofRegistry_eq_some_iff reachable.sound known).2
      ⟨promotes (version + 1) (by grind) (by grind), next, rfl⟩⟩

end Migrations

/-! ## The sample -/

namespace Sample

/-- Figures of a third version, which came about without a promotion. -/
def renumbered : Schema := { figure with version := 3 }

theorem register_renumbered :
    registry.register renumbered = .ok (.upgraded 2 3, upgradedTo renumbered) := by rfl

theorem promotesAt_captioned {version : UInt32} (after : 1 < version) (within : version ≤ 3) :
    captioned.PromotesAt version := by
  have versions : version = 2 ∨ version = 3 := by grind
  rcases versions with rfl | rfl
  · exact ⟨"label", label, _, rfl, rfl, rfl⟩
  · exact ⟨"caption", caption, _, rfl, rfl, rfl⟩

theorem promotesAt_renumbered_iff {version : UInt32} :
    renumbered.PromotesAt version ↔ version = 2 := by
  constructor
  · rintro ⟨field, spec, origin, declared, promoted, rfl⟩
    obtain ⟨-, rfl⟩ := fields_figure declared
    cases promoted
    rfl
  · rintro rfl
    exact ⟨"label", label, _, rfl, rfl, rfl⟩

end Sample

namespace Migrations

/-- Figures got labels in their second version and captions in the third one, so that they can be
brought from the first version to the third one. -/
theorem hasPath_ofRegistry_iff_captioned :
    (Sample.upgradedTo Sample.captioned).Reachable ∧
      (Sample.upgradedTo Sample.captioned).get? "Figure" = some Sample.captioned ∧
      (1 : UInt32) ≤ Sample.captioned.version ∧
      (ofRegistry (Sample.upgradedTo Sample.captioned)).result.hasPath "Figure" 1
        Sample.captioned.version = true ∧
      ∀ tree name missing,
        ((ofRegistry (Sample.upgradedTo Sample.captioned)).result.upgrade tree "Figure" 1
          Sample.captioned.version).result ≠ .error (.missingStep name missing) := by
  have reachable := Sample.reachable_registry.register Sample.register_captioned
  have known : (Sample.upgradedTo Sample.captioned).get? "Figure" = some Sample.captioned := by rfl
  have forward : (1 : UInt32) ≤ Sample.captioned.version := by decide
  obtain ⟨decides, never, -⟩ := hasPath_ofRegistry_iff reachable known forward
  have path := decides.2 fun _ => Sample.promotesAt_captioned
  exact ⟨reachable, known, forward, path, never path⟩

/-- When the third version of figures promoted nothing, there is no path to it from the version
before they got labels, and their upgrade misses the step from the second version. -/
theorem hasPath_ofRegistry_gap :
    (Sample.upgradedTo Sample.renumbered).Reachable ∧
      (Sample.upgradedTo Sample.renumbered).get? "Figure" = some Sample.renumbered ∧
      (∀ version, Sample.renumbered.PromotesAt version ↔ version = 2) ∧
      Sample.renumbered.version = 3 ∧
      (ofRegistry (Sample.upgradedTo Sample.renumbered)).result.hasPath "Figure" (2 - 1) 3 = false ∧
      ((ofRegistry (Sample.upgradedTo Sample.renumbered)).result.upgrade
        (Sample.earlyFigure (.string "a")) "Figure" (2 - 1) 3).result =
          .error (.missingStep "Figure" 2) :=
  ⟨Sample.reachable_registry.register Sample.register_renumbered, rfl,
    fun _ => Sample.promotesAt_renumbered_iff, rfl, rfl, rfl⟩

end Migrations
end DocTree
