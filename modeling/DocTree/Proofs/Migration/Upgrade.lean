import DocTree.Proofs.Migration.Steps
import DocTree.Proofs.Validation.Acceptance

/-!
# Upgraded documents

A node may lack a required field while its `data` still has the old key of the field. An upgrade
over all versions in which a type promoted fields gives every node of the type in the tree its
required fields, so these nodes no longer need to be excused. Lists of nodes are values, which an
upgrade does not look into, so what they hold stays as it is.

## Main statements

* `Validator.Checked.value_of_at?` — what is checked at a place of a tree is the node there.
* `Migrations.upgrade_complete` — the nodes of the type have their required fields.
* `Migrations.upgrade_discharges` — no field is missing in a node of the type.
-/

namespace DocTree

/-! ## Sites in trees -/

namespace Validator

variable {validator : Validator}

/-- The validator that does not excuse fields that are still in `data`. -/
def strict (validator : Validator) : Validator :=
  { validator with settings := { validator.settings with acceptLegacyData := false } }

/-- What is checked at a place of a tree is the object of the node there. -/
theorem Checked.value_of_at? {tree found : Node}
    (unshadowed : ∀ places found, tree.at? places = some found → found.head.Unshadowed)
    {site : Site} (h : validator.Checked (Site.root tree.toJson) site) {places : List Nat}
    (path : site.path = Path.ofPlaces places) (there : tree.at? places = some found) :
    site.value = found.toJson := by
  induction h generalizing places found with
  | start =>
    have root : places = [] := by
      cases places with
      | nil => rfl
      | cons place places =>
        have upward := congrArg (List.length ∘ Path.upward) path
        simp [Site.root, Path.root, Path.ofPlaces, Path.ofSegments] at upward
    subst root
    cases there
    rfl
  | @step site _ _ next ih =>
    cases next with
    | child opens array item =>
      obtain ⟨parents, rfl, parent⟩ := Path.child_eq_ofPlaces_iff.1 path
      obtain ⟨node, above, child⟩ := Node.at?_append_singleton_eq_some_iff.1 there
      have read := opens.read
      rw [ih parent above, Node.map?_toJson] at read
      cases read
      have items := childItems_toMap (unshadowed parents node above)
      simp only [childItems, array, Option.bind_some, Json.items?, Option.getD_some] at items
      rw [items, List.getElem?_map, child] at item
      exact (Option.some.inj item).symm
    | element =>
      -- An element lies below a field, and no field is on the way to a place.
      obtain ⟨parents, -, parent⟩ := Path.child_eq_ofPlaces_iff.1 path
      exact absurd parent (Path.push_field_ne_ofPlaces _ _ _)

/-- Where a field is missing, a required field of an object of a registered type is absent. -/
theorem absent_of_missingField {site : Site}
    (h : ViolationKind.missingField ∈ validator.failuresAt site) :
    ∃ object schema field spec, site.value.map? = some object ∧
      validator.schemaOf? object = some schema ∧ schema.fields.get? field = some spec ∧
      spec.required = true ∧ object.get? field = none := by
  rcases List.mem_append.1 h with refused | h
  · unfold refusals at refused
    split at refused <;> simp at refused
  · cases read : site.value.map? with
    | none => simp [read] at h
    | some object =>
      cases known : validator.schemaOf? object with
      | none =>
        simp only [read, known] at h
        split at h <;> simp at h
      | some schema =>
        simp only [read, known] at h
        split at h
        · obtain ⟨field, spec, declared, required, absent, -⟩ := missingField_mem_failures_iff.1 h
          exact ⟨object, schema, field, spec, rfl, known, declared, required, absent⟩
        · simp at h

end Validator

/-! ## The sample -/

namespace Sample

theorem keysApart_figure : figure.KeysApart := by
  intro f g first second p q declared declared' _ _ _
  rw [(fields_figure declared).1, (fields_figure declared').1]

theorem promoted_figure : ∀ field spec origin, figure.fields.get? field = some spec →
    spec.promotedFrom = some origin → 1 < origin.sinceVersion ∧ origin.sinceVersion ≤ 2 := by
  intro field spec origin declared promoted
  rw [(fields_figure declared).2] at promoted
  cases promoted
  decide

end Sample

/-! ## Upgrades -/

namespace Migrations

variable {registry : Registry} {schema : Schema} {typeName : String}

/-- A node that was accepted has its required fields, or they will be promoted and `data` still has
their keys. -/
theorem pending_of_wellFormedAt {settings : ValidationSettings} {depth : Nat} {node : Node}
    (h : Validator.WellFormedAt ⟨registry, settings⟩ depth node)
    (known : registry.get? node.typeName = some schema) {earlier : UInt32}
    (after : ∀ field spec origin, schema.fields.get? field = some spec →
      spec.promotedFrom = some origin → earlier < origin.sinceVersion) :
    Pending schema earlier node.head := by
  obtain ⟨obeys, -⟩ := h.of_registered known
  intro field spec declared required absent
  have covered := obeys.required field spec declared required absent
  simp only [Validator.coversLegacy, Bool.and_eq_true, Option.any_eq_true,
    KeyMap.contains_iff] at covered
  obtain ⟨-, origin, promoted, -, data, here, value, there⟩ := covered
  refine ⟨origin, value, promoted, after field spec origin declared promoted, ?_⟩
  rw [here]
  exact there

/-- After an upgrade over all versions in which a type promoted fields, the nodes of the type have
their required fields. -/
theorem upgrade_complete (sound : registry.Sound) (known : registry.get? typeName = some schema)
    (apart : schema.KeysApart) {settings : ValidationSettings} {tree upgraded : Node}
    (wellFormed : Validator.WellFormedAt ⟨registry, settings⟩ 0 tree) {earlier later : UInt32}
    (forward : earlier ≤ later)
    (between : ∀ field spec origin, schema.fields.get? field = some spec →
      spec.promotedFrom = some origin →
      earlier < origin.sinceVersion ∧ origin.sinceVersion ≤ later)
    (done : ((ofRegistry registry).result.upgrade tree typeName earlier later).result =
      .ok upgraded) {places : List Nat} {found : Node} (there : upgraded.at? places = some found) :
    found.head.Unshadowed ∧ (found.head.typeName = typeName → ∀ field spec,
      schema.fields.get? field = some spec → spec.required = true →
        found.head.fields.get? field ≠ none) := by
  have versions : earlier.toNat + (later.toNat - earlier.toNat) = later.toNat := by
    have := UInt32.le_iff_toNat_le.1 forward
    omega
  have before : ∀ places found, tree.at? places = some found → found.head.Unshadowed ∧
      (found.head.typeName = typeName → Pending schema earlier found.head) := by
    intro places found there
    have fine := wellFormed.at? there
    refine ⟨fine.unshadowed sound, fun typed => pending_of_wellFormedAt fine ?_ fun field spec
      origin declared promoted => (between field spec origin declared promoted).1⟩
    rw [Node.typeName, typed, known]
  obtain ⟨unshadowed, pending⟩ := upgradeBy_pending sound known apart versions done before _ _ there
  refine ⟨unshadowed, ?_⟩
  intro typed field spec declared required absent
  obtain ⟨origin, _, promoted, late, -⟩ := pending typed field spec declared required absent
  exact UInt32.not_lt.2 (between field spec origin declared promoted).2 late

/-- **An upgrade settles what was excused.** When a tree was accepted, and the nodes of a type are
upgraded over all versions in which the type promoted fields, then the report on the upgraded tree
says of no node of the type in the tree that a field is missing, also when fields that are still in
`data` are not excused. -/
theorem upgrade_discharges (reachable : registry.Reachable)
    (known : registry.get? typeName = some schema) (apart : schema.KeysApart)
    {settings : ValidationSettings} {raw : Json} (canonical : raw.Canonical) {tree : Node}
    (accepted : (Validator.validate ⟨registry, settings⟩ raw).result = .ok tree)
    {earlier later : UInt32} (forward : earlier ≤ later)
    (between : ∀ field spec origin, schema.fields.get? field = some spec →
      spec.promotedFrom = some origin →
      earlier < origin.sinceVersion ∧ origin.sinceVersion ≤ later)
    {upgraded : Node}
    (done : ((ofRegistry registry).result.upgrade tree typeName earlier later).result =
      .ok upgraded) {places : List Nat} {node : Node} (there : upgraded.at? places = some node)
    (typed : node.typeName = typeName) :
    (Path.ofPlaces places, ViolationKind.missingField) ∉
      (((Validator.strict ⟨registry, settings⟩).violations upgraded.toJson).map
        Violation.failure) := by
  have wellFormed : Validator.WellFormedAt ⟨registry, settings⟩ 0 tree :=
    ((Validator.result_eq_ok_iff_wellFormed reachable.sound canonical).1 accepted).2
  have complete := fun {places found} (there : upgraded.at? places = some found) =>
    upgrade_complete reachable.sound known apart wellFormed forward between done there
  intro missing
  obtain ⟨site, checked, path, failed⟩ := Validator.mem_violations_iff.1 missing
  have value := checked.value_of_at? (fun _ _ there => (complete there).1) path there
  obtain ⟨object, found, field, spec, read, named, declared, required, absent⟩ :=
    Validator.absent_of_missingField failed
  obtain ⟨unshadowed, present⟩ := complete there
  rw [value, Node.map?_toJson] at read
  cases read
  rw [Validator.schemaOf?_toMap unshadowed, typed] at named
  obtain rfl : found = schema := Option.some.inj (named.symm.trans known)
  have notBase := Schema.declared_not_base (reachable.sound _ _ known).2.2 declared
  rw [Node.get?_toMap_of_not_base unshadowed notBase] at absent
  exact present typed field spec declared required absent

/-- In the sample, the child of the box has its label after the upgrade. -/
theorem upgrade_discharges_boxed :
    Sample.registry.Reachable ∧ Sample.registry.get? "Figure" = some Sample.figure ∧
      Sample.figure.KeysApart ∧ Sample.boxed.toJson.Canonical ∧
      (Sample.validator.validate Sample.boxed.toJson).result = .ok Sample.boxed ∧
      ((ofRegistry Sample.registry).result.upgrade Sample.boxed "Figure" 1 2).result =
        .ok Sample.promotedBox ∧
      (Path.ofPlaces [0], ViolationKind.missingField) ∉
        (Sample.validator.strict.violations Sample.promotedBox.toJson).map Violation.failure := by
  have known : Sample.registry.get? "Figure" = some Sample.figure := by rfl
  have canonical : Sample.boxed.toJson.Canonical := by decide
  have accepted : (Sample.validator.validate Sample.boxed.toJson).result = .ok Sample.boxed := by
    rfl
  have done : ((ofRegistry Sample.registry).result.upgrade Sample.boxed "Figure" 1 2).result =
      .ok Sample.promotedBox := by rfl
  exact ⟨Sample.reachable_registry, known, Sample.keysApart_figure, canonical, accepted, done,
    upgrade_discharges Sample.reachable_registry known Sample.keysApart_figure canonical accepted
      (by decide) Sample.promoted_figure done rfl rfl⟩

/-- The item of the box is a figure too, and it is checked. It is accepted with its label in `data`,
the upgrade does not reach it, and so its label is missing when that is not excused. -/
theorem upgrade_leaves_items :
    Sample.registry.Reachable ∧ Sample.registry.get? "Figure" = some Sample.figure ∧
      Sample.figure.KeysApart ∧
      (∀ field spec origin, Sample.figure.fields.get? field = some spec →
        spec.promotedFrom = some origin → 1 < origin.sinceVersion ∧ origin.sinceVersion ≤ 2) ∧
      (ofRegistry Sample.registry).result.hasPath "Figure" 1 2 = true ∧
      (Sample.validator.validate Sample.boxed.toJson).result = .ok Sample.boxed ∧
      ((ofRegistry Sample.registry).result.upgrade Sample.boxed "Figure" 1 2).result =
        .ok Sample.promotedBox ∧
      Sample.label.kind.fits (.string "b") = true ∧
      Sample.validator.strict.Checked (Site.root Sample.promotedBox.toJson)
        ((Site.root Sample.promotedBox.toJson).element "items" 0
          (Sample.earlyFigure (.string "a")).toJson) ∧
      (Sample.validator.strict.violations Sample.promotedBox.toJson).map Violation.failure =
        [(Path.root.element "items" 0, .missingField)] := by
  have opens : Sample.validator.strict.Opens (Site.root Sample.promotedBox.toJson) Sample.box
      Sample.promotedBox.toMap := ⟨by decide, rfl, rfl⟩
  have declared : Sample.box.fields.get? "items" = some { kind := .nodeList } := by rfl
  have array : Sample.promotedBox.toMap.get? "items" =
      some (.array [(Sample.earlyFigure (.string "a")).toJson]) := by rfl
  exact ⟨Sample.reachable_registry, rfl, Sample.keysApart_figure, Sample.promoted_figure, rfl, rfl,
    rfl, rfl, .step .start (.element opens declared rfl array rfl), rfl⟩

end Migrations
end DocTree
