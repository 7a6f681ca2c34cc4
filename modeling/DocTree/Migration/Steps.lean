import DocTree.Migration.Promotion

/-!
# Migrations

A migration step promotes the nodes of a type from one version to the next. Steps are chained to
bring documents to a later version, and undone in reverse order to bring them back.

## Main definitions

- `Migrations`: the steps by type and version.
- `Migrations.ofRegistry`: the steps that schemas declare.
- `Migrations.upgrade`, `Migrations.downgrade`: documents of other versions.
- `Migrations.hasPath`: whether there is a step for each version on the way.
-/

namespace DocTree

/-- The migration steps that are known, one for each type and earlier version. -/
structure Migrations where
  steps : List ((String × UInt32) × Mapping) := []

namespace Migrations

/-- The mapping of the step of a type from a version. -/
def mapping? (migrations : Migrations) (typeName : String) (version : UInt32) : Option Mapping :=
  migrations.steps.lookup (typeName, version)

/-- The step of a type from a version. -/
def step (migrations : Migrations) (typeName : String) (version : UInt32) :
    Except PromotionError Promotion :=
  match migrations.mapping? typeName version with
  | some mapping => .ok ⟨typeName, mapping⟩
  | none => .error (.missingStep typeName version)

/-- The number of steps. -/
def count (migrations : Migrations) : Nat := migrations.steps.length

/-- Enters a step, over an earlier one from the same version. There is no step from the last
version. -/
def add (migrations : Migrations) (typeName : String) (version : UInt32) (mapping : Mapping) :
    Noted Migrations :=
  if version = lastVersion then ⟨migrations, [.migrationIgnored typeName version]⟩
  else
    ⟨⟨((typeName, version), mapping) ::
      migrations.steps.filter fun step => step.1 ≠ (typeName, version)⟩, []⟩

/-! ## Steps that schemas declare -/

/-- The promoted fields of a schema: the version that promoted them, their data key, and their
name. -/
def promotedFields (schema : Schema) : List (UInt32 × String × String) :=
  schema.fields.entries.filterMap fun (field, spec) =>
    spec.promotedFrom.map fun origin => (origin.sinceVersion, origin.dataKey, field)

/-- The versions at which a schema promoted fields, each of them once. -/
def promotingVersions (schema : Schema) : List UInt32 :=
  ((promotedFields schema).map (·.1)).eraseDups

/-- The mapping of the fields that a schema promoted at a version. -/
def mappingAt (schema : Schema) (version : UInt32) : Mapping :=
  .ofPairs (((promotedFields schema).filter (·.1 = version)).map (·.2))

/-- Enters the step to a version of a schema. There is no step to version 0. -/
def addVersion (schema : Schema) (migrations : Migrations) (version : UInt32) :
    Noted Migrations :=
  if version = 0 then ⟨migrations, [.firstVersionIgnored schema.name]⟩
  else migrations.add schema.name (version - 1) (mappingAt schema version)

/-- Enters the steps to several versions of a schema. -/
def addVersions (schema : Schema) : List UInt32 → Migrations → Noted Migrations
  | [], migrations => ⟨migrations, []⟩
  | version :: versions, migrations =>
    let added := addVersion schema migrations version
    let all := addVersions schema versions added.result
    ⟨all.result, added.notices ++ all.notices⟩

/-- Enters the steps that schemas declare. -/
def addSchemas : List Schema → Migrations → Noted Migrations
  | [], migrations => ⟨migrations, []⟩
  | schema :: schemas, migrations =>
    let added := addVersions schema (promotingVersions schema) migrations
    let all := addSchemas schemas added.result
    ⟨all.result, added.notices ++ all.notices⟩

/-- The steps that the schemas of a registry declare. -/
def ofRegistry (registry : Registry) : Noted Migrations :=
  addSchemas registry.schemas.values {}

/-! ## Chains of steps -/

/-- Promotes through so many steps, the first from the given version. -/
def upgradeBy (migrations : Migrations) (typeName : String) :
    (steps : Nat) → UInt32 → Node → Noted (Except PromotionError Node)
  | 0, _, tree => ⟨.ok tree, []⟩
  | steps + 1, version, tree =>
    match migrations.step typeName version with
    | .error e => ⟨.error e, []⟩
    | .ok promotion =>
      match promotion.promote tree with
      | ⟨.ok tree, _⟩ => migrations.upgradeBy typeName steps (version + 1) tree
      | failed => failed

/-- Demotes through so many steps, the first to the version before the given one. -/
def downgradeBy (migrations : Migrations) (typeName : String) :
    (steps : Nat) → UInt32 → Node → Noted (Except PromotionError Node)
  | 0, _, tree => ⟨.ok tree, []⟩
  | steps + 1, version, tree =>
    match migrations.step typeName (version - 1) with
    | .error e => ⟨.error e, []⟩
    | .ok promotion =>
      match promotion.demote tree with
      | ⟨.ok tree, _⟩ => migrations.downgradeBy typeName steps (version - 1) tree
      | failed => failed

/-- Brings the nodes of a type to a later version; to an earlier one there is nothing to do. -/
def upgrade (migrations : Migrations) (tree : Node) (typeName : String) (earlier later : UInt32) :
    Noted (Except PromotionError Node) :=
  migrations.upgradeBy typeName (later.toNat - earlier.toNat) earlier tree

/-- Brings the nodes of a type back to an earlier version; to a later one there is nothing to
do. -/
def downgrade (migrations : Migrations) (tree : Node) (typeName : String)
    (later earlier : UInt32) : Noted (Except PromotionError Node) :=
  migrations.downgradeBy typeName (later.toNat - earlier.toNat) later tree

/-- Whether there are so many steps in a row, the first from the given version. -/
def hasSteps (migrations : Migrations) (typeName : String) : (steps : Nat) → UInt32 → Bool
  | 0, _ => true
  | steps + 1, version =>
    (migrations.mapping? typeName version).isSome &&
      migrations.hasSteps typeName steps (version + 1)

/-- Whether there is a step for each version between two versions, in either order. -/
def hasPath (migrations : Migrations) (typeName : String) (one other : UInt32) : Bool :=
  let low := min one other
  migrations.hasSteps typeName ((max one other).toNat - low.toNat) low

end Migrations
end DocTree
