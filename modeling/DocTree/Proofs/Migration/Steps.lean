import DocTree.Migration.Steps
import DocTree.Proofs.Migration.Moves
import DocTree.Proofs.Registry.Reachable

/-!
# The steps that schemas declare

The step of a type from a version moves the data keys of the fields that were promoted in the next
version. A chain of steps brings every required field that was still in `data` to its place.

## Main definitions

* `Schema.KeysApart` — no two fields were promoted from the same data key.
* `Migrations.Declared` — all steps are those that some schemas declare.
* `Migrations.make` — one step of a chain, up or down.
* `Migrations.Pending` — the required fields that are absent are still in `data`.

## Main statements

* `Migrations.mapping?_ofRegistry` — the step of a type is the one that its schema declares.
* `Migrations.result_upgradeBy_eq_make`, `Migrations.result_downgradeBy_eq_make` — the first step of
  a chain.
* `Migrations.upgradeBy_pending` — what a chain of steps makes of the nodes of the type.
-/

namespace DocTree

/-- No two fields were promoted from the same data key. -/
def Schema.KeysApart (schema : Schema) : Prop :=
  ∀ f g first second (p q : PromotionOrigin), schema.fields.get? f = some first →
    schema.fields.get? g = some second → first.promotedFrom = some p →
    second.promotedFrom = some q → p.dataKey = q.dataKey → f = g

namespace Migrations

variable {schema : Schema}

/-! ## Declared mappings -/

theorem mem_promotedFields_iff {version : UInt32} {key field : String} :
    (version, key, field) ∈ promotedFields schema ↔
      ∃ spec, schema.fields.get? field = some spec ∧ spec.promotedFrom = some ⟨key, version⟩ := by
  simp only [promotedFields, List.mem_filterMap, Prod.exists, Option.map_eq_some_iff,
    KeyMap.mem_entries_iff]
  constructor
  · rintro ⟨_, spec, declared, ⟨_, _⟩, promoted, same⟩
    cases same
    exact ⟨spec, declared, promoted⟩
  · rintro ⟨spec, declared, promoted⟩
    exact ⟨field, spec, declared, _, promoted, rfl⟩

theorem mem_promotedPairs_iff {version : UInt32} {key field : String} :
    (key, field) ∈ ((promotedFields schema).filter (·.1 = version)).map (·.2) ↔
      ∃ spec, schema.fields.get? field = some spec ∧ spec.promotedFrom = some ⟨key, version⟩ := by
  simp [← mem_promotedFields_iff]

/-- A data key is mapped to a field that was promoted from it in that version. -/
theorem promoted_of_mem_mappingAt {version : UInt32} {key field : String}
    (h : (key, field) ∈ (mappingAt schema version).pairs) :
    ∃ spec, schema.fields.get? field = some spec ∧ spec.promotedFrom = some ⟨key, version⟩ :=
  mem_promotedPairs_iff.1 (KeyMap.mem_of_mem_ofList h)

/-- The data key of a promoted field is mapped to it when no other field was promoted from the key
in the same version. -/
theorem mem_mappingAt_of_only {version : UInt32} {key field : String} {spec : FieldSpec}
    (declared : schema.fields.get? field = some spec)
    (promoted : spec.promotedFrom = some ⟨key, version⟩)
    (only : ∀ other found, schema.fields.get? other = some found →
      found.promotedFrom = some ⟨key, version⟩ → other = field) :
    (key, field) ∈ (mappingAt schema version).pairs := by
  refine KeyMap.mem_entries_iff.2 (KeyMap.get?_ofList_of_mem
    (mem_promotedPairs_iff.2 ⟨spec, declared, promoted⟩) ?_)
  intro other mem
  obtain ⟨found, declared', promoted'⟩ := mem_promotedPairs_iff.1 mem
  exact only other found declared' promoted'

/-- When no two fields share a data key, that of each promoted field is mapped to it. -/
theorem mem_mappingAt (apart : schema.KeysApart) {version : UInt32} {key field : String}
    {spec : FieldSpec} (declared : schema.fields.get? field = some spec)
    (promoted : spec.promotedFrom = some ⟨key, version⟩) :
    (key, field) ∈ (mappingAt schema version).pairs :=
  mem_mappingAt_of_only declared promoted fun other found declared' promoted' =>
    apart other field found spec _ _ declared' declared promoted' promoted rfl

/-! ## Derived steps -/

/-- All steps are those that some schemas declare. -/
def Declared (schemas : List Schema) (migrations : Migrations) : Prop :=
  ∀ name version mapping, ((name, version), mapping) ∈ migrations.steps →
    ∃ schema ∈ schemas, schema.name = name ∧ mapping = mappingAt schema (version + 1)

variable {schemas : List Schema} {migrations : Migrations}

theorem Declared.addVersion (h : Declared schemas migrations) (mem : schema ∈ schemas)
    (version : UInt32) : Declared schemas (addVersion schema migrations version).result := by
  unfold Migrations.addVersion add
  split
  · exact h
  · split
    · exact h
    · intro name earlier mapping found
      rcases List.mem_cons.1 found with same | found
      · cases same
        exact ⟨schema, mem, rfl, by rw [UInt32.sub_add_cancel]⟩
      · exact h name earlier mapping (List.mem_filter.1 found).1

theorem Declared.addVersions (h : Declared schemas migrations) (mem : schema ∈ schemas)
    (versions : List UInt32) :
    Declared schemas (addVersions schema versions migrations).result := by
  induction versions generalizing migrations with
  | nil => exact h
  | cons version versions ih => exact ih (h.addVersion mem version)

theorem Declared.addSchemas (h : Declared schemas migrations) {added : List Schema}
    (mem : ∀ schema ∈ added, schema ∈ schemas) :
    Declared schemas (addSchemas added migrations).result := by
  induction added generalizing migrations with
  | nil => exact h
  | cons schema added ih =>
    obtain ⟨first, later⟩ := List.forall_mem_cons.1 mem
    exact ih (h.addVersions first _) later

/-- The step of a type is the one that its schema declares. -/
theorem mapping?_ofRegistry {registry : Registry} (sound : registry.Sound) {typeName : String}
    (known : registry.get? typeName = some schema) {version : UInt32} {mapping : Mapping}
    (step : (ofRegistry registry).result.mapping? typeName version = some mapping) :
    mapping = mappingAt schema (version + 1) := by
  have none : Declared registry.schemas.values {} := fun _ _ _ mem => by cases mem
  have declared : Declared registry.schemas.values (ofRegistry registry).result :=
    none.addSchemas fun _ mem => mem
  obtain ⟨before, after, steps, -⟩ := List.lookup_eq_some_iff.1 step
  have mem : ((typeName, version), mapping) ∈ (ofRegistry registry).result.steps := by
    simp [steps]
  obtain ⟨found, value, named, same⟩ := declared _ _ _ mem
  obtain ⟨name, registered⟩ := KeyMap.mem_values_iff.1 value
  obtain rfl : name = typeName := (sound name found registered).1.symm.trans named
  obtain rfl : found = schema := Option.some.inj (registered.symm.trans known)
  exact same

/-! ## Chains of steps -/

/-- The required fields that are absent will be promoted after the version, and `data` still has
their keys. -/
def Pending (schema : Schema) (version : UInt32) (head : Head) : Prop :=
  ∀ field spec, schema.fields.get? field = some spec → spec.required = true →
    head.fields.get? field = none → ∃ origin value, spec.promotedFrom = some origin ∧
      version < origin.sinceVersion ∧ head.data.bind (·.get? origin.dataKey) = some value

/-- The step to the next version moves what was promoted in it, and leaves in `data` what will be
promoted later. -/
theorem Pending.step (apart : schema.KeysApart) {version : UInt32} {head next : Head}
    (h : Pending schema version head)
    (moved : Mapping.Moved (mappingAt schema (version + 1)).pairs head next) :
    Pending schema (version + 1) next := by
  intro field spec declared required absent
  obtain ⟨unset, unmoved⟩ := Option.or_eq_none_iff.1 ((moved.fields field).symm.trans absent)
  obtain ⟨⟨key, since⟩, value, promoted, later, found⟩ := h field spec declared required unset
  -- What was promoted in this step is mapped, and would have been moved.
  have notNow : since ≠ version + 1 := by
    rintro rfl
    have none := List.findSome?_eq_none_iff.1 unmoved (key, field)
      (mem_mappingAt apart declared promoted)
    simp [found] at none
  -- Its key would only be gone if another field had been promoted from it.
  have kept : (mappingAt schema (version + 1)).pairs.any (·.1 == key) = false := by
    apply Bool.eq_false_iff.2
    intro mapped
    obtain ⟨⟨_, other⟩, mem, same⟩ := List.any_eq_true.1 mapped
    obtain rfl := eq_of_beq same
    obtain ⟨found, declared', promoted'⟩ := promoted_of_mem_mappingAt mem
    obtain rfl : other = field := apart other field found spec _ _ declared' declared promoted'
      promoted rfl
    obtain rfl : found = spec := Option.some.inj (declared'.symm.trans declared)
    exact notNow (congrArg PromotionOrigin.sinceVersion
      (Option.some.inj (promoted.symm.trans promoted')))
  refine ⟨⟨key, since⟩, value, promoted, ?_, ?_⟩
  · grind
  · rw [moved.data, Mapping.get?_rest, kept]
    exact found

/-- A version before another one has a next version. -/
theorem toNat_succ {version later : UInt32} (below : version < later) :
    (version + 1).toNat = version.toNat + 1 := by
  have order := UInt32.lt_iff_toNat_lt.1 below
  have bound := later.toNat_lt
  have one : (1 : UInt32).toNat = 1 := rfl
  rw [UInt32.toNat_add, one, Nat.mod_eq_of_lt (by omega)]

theorem versions_succ {version later : UInt32} {steps : Nat}
    (h : version.toNat + (steps + 1) = later.toNat) :
    (version + 1).toNat + steps = later.toNat := by
  have below : version < later := UInt32.lt_iff_toNat_lt.2 (by omega)
  rw [toNat_succ below]
  omega

section chains

variable {typeName : String} {steps : Nat} {version : UInt32}

/-- One step of a chain, which promotes or demotes. -/
def make (migrations : Migrations) (typeName : String)
    (move : Promotion → Node → Noted (Except PromotionError Node)) (tree : Node)
    (version : UInt32) : Except PromotionError Node :=
  match migrations.mapping? typeName version with
  | some mapping => (move ⟨typeName, mapping⟩ tree).result
  | none => .error (.missingStep typeName version)

theorem make_eq_ok_iff {move : Promotion → Node → Noted (Except PromotionError Node)}
    {tree moved : Node} : migrations.make typeName move tree version = .ok moved ↔
      ∃ mapping, migrations.mapping? typeName version = some mapping ∧
        (move ⟨typeName, mapping⟩ tree).result = .ok moved := by
  unfold make
  cases migrations.mapping? typeName version <;> simp

/-- A chain up begins with its first step, and goes on from what that has made. -/
theorem result_upgradeBy_eq_make (tree : Node) :
    (migrations.upgradeBy typeName (steps + 1) version tree).result =
      migrations.make typeName Promotion.promote tree version >>= fun promoted =>
        (migrations.upgradeBy typeName steps (version + 1) promoted).result := by
  rw [upgradeBy, step, make]
  cases migrations.mapping? typeName version with
  | none => rfl
  | some mapping =>
    cases run : Promotion.promote ⟨typeName, mapping⟩ tree with
    | mk result notices =>
      simp only [run]
      cases result <;> rfl

/-- A chain down begins with its last step, and goes on from what that has made. -/
theorem result_downgradeBy_eq_make (tree : Node) :
    (migrations.downgradeBy typeName (steps + 1) version tree).result =
      migrations.make typeName Promotion.demote tree (version - 1) >>= fun demoted =>
        (migrations.downgradeBy typeName steps (version - 1) demoted).result := by
  rw [downgradeBy, step, make]
  cases migrations.mapping? typeName (version - 1) with
  | none => rfl
  | some mapping =>
    cases run : Promotion.demote ⟨typeName, mapping⟩ tree with
    | mk result notices =>
      simp only [run]
      cases result <;> rfl

/-- A chain that is made begins with a step that is made. -/
theorem upgradeBy_succ_eq_ok {tree upgraded : Node}
    (done : (migrations.upgradeBy typeName (steps + 1) version tree).result = .ok upgraded) :
    ∃ mapping promoted, migrations.mapping? typeName version = some mapping ∧
      (Promotion.promote ⟨typeName, mapping⟩ tree).result = .ok promoted ∧
      (migrations.upgradeBy typeName steps (version + 1) promoted).result = .ok upgraded := by
  rw [result_upgradeBy_eq_make, Except.bind_eq_ok_iff] at done
  obtain ⟨promoted, made, rest⟩ := done
  obtain ⟨mapping, known, run⟩ := make_eq_ok_iff.1 made
  exact ⟨mapping, promoted, known, run, rest⟩

/-- A chain back that is made begins with the last step, which is undone. -/
theorem downgradeBy_succ_eq_ok {tree downgraded : Node}
    (done : (migrations.downgradeBy typeName (steps + 1) version tree).result = .ok downgraded) :
    ∃ mapping demoted, migrations.mapping? typeName (version - 1) = some mapping ∧
      (Promotion.demote ⟨typeName, mapping⟩ tree).result = .ok demoted ∧
      (migrations.downgradeBy typeName steps (version - 1) demoted).result = .ok downgraded := by
  rw [result_downgradeBy_eq_make, Except.bind_eq_ok_iff] at done
  obtain ⟨demoted, made, rest⟩ := done
  obtain ⟨mapping, known, run⟩ := make_eq_ok_iff.1 made
  exact ⟨mapping, demoted, known, run, rest⟩

end chains

/-- A chain of declared steps promotes all that was to be promoted up to the later version, in all
nodes of the type. -/
theorem upgradeBy_pending {registry : Registry} (sound : registry.Sound) {typeName : String}
    (known : registry.get? typeName = some schema) (apart : schema.KeysApart) {steps : Nat}
    {version later : UInt32} (versions : version.toNat + steps = later.toNat) {tree upgraded : Node}
    (h : ((ofRegistry registry).result.upgradeBy typeName steps version tree).result = .ok upgraded)
    (pending : ∀ places found, tree.at? places = some found → found.head.Unshadowed ∧
      (found.head.typeName = typeName → Pending schema version found.head)) :
    ∀ places found, upgraded.at? places = some found → found.head.Unshadowed ∧
      (found.head.typeName = typeName → Pending schema later found.head) := by
  -- Each step keeps heads unshadowed and what is pending pending, from one version later on.
  induction steps generalizing version tree with
  | zero =>
    cases h
    obtain rfl : version = later := UInt32.toNat_inj.1 versions
    exact pending
  | succ steps ih =>
    obtain ⟨mapping, next, declared, promoted, rest⟩ := upgradeBy_succ_eq_ok h
    obtain rfl := mapping?_ofRegistry sound known declared
    have notBase : ∀ pair ∈ (mappingAt schema (version + 1)).pairs, isBaseKey pair.2 = false :=
      fun pair mem => (Promotion.run_eq_ok promoted).2.2 pair.2 (List.mem_map_of_mem mem)
    refine ih (versions_succ versions) rest (Promotion.promote_heads
      (P := fun head => head.Unshadowed ∧
        (head.typeName = typeName → Pending schema version head))
      (Q := fun head => head.Unshadowed ∧
        (head.typeName = typeName → Pending schema (version + 1) head))
      promoted ?_ ?_ pending)
    · exact fun head other kept => ⟨kept.1, fun typed => absurd typed other⟩
    · exact fun head next typed moved kept => ⟨moved.unshadowed notBase kept.1, fun _ =>
        (kept.2 typed).step apart moved⟩

end Migrations
end DocTree
