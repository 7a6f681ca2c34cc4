import DocTree.Validation.Check
import DocTree.Proofs.Foundations

/-!
# The rules of one object

The rules that an object of a type has to keep, apart from the values below it, each with the kind
of failure that breaking it is. The rules are told by look-ups in the object and the schema.

## Main definitions

* `Validator.schemaOf?` — the registered schema that an object names.
* `ContentClass.fits` — whether an object carries the content of a class.
* `Validator.coversLegacy` — whether `data` makes up for an absent field.
* `Validator.failures` — the kinds of the failures of one object.
* `Validator.Admits` — that an object keeps all rules.

## Main statements

* `Validator.failures_eq_nil_iff` — an object without failures keeps all rules.
* `Validator.typeOf_eq_ok_iff` — the type of an object is what it names.
* `Validator.kinds_contentBreach`, `Validator.kinds_valueBreach`, `Validator.kinds_dataBreach`,
  `Validator.kinds_childBreach` — the checks of the rules find these failures.
-/

namespace DocTree

/-! ## Rules -/

/-- Whether an object carries the content of a class. -/
def ContentClass.fits (contentClass : ContentClass) (object : KeyMap Json) : Bool :=
  match contentClass with
  | .leaf => !object.contains "children" && object.contains "value"
  | .container =>
    ((object.get? "children").bind Json.items?).isSome && !object.contains "value"
  | .empty => !object.contains "children" && !object.contains "value"

/-- The `data` of an object. -/
def dataOf? (object : KeyMap Json) : Option (KeyMap Json) := (object.get? "data").bind Json.map?

namespace Validator

/-- The registered schema that an object names. -/
def schemaOf? (validator : Validator) (object : KeyMap Json) : Option Schema :=
  ((object.get? "type").bind Json.string?).bind validator.registry.get?

/-- Whether `data` makes up for an absent field: old forms are accepted, the field was promoted
within the window, and `data` still has its key. -/
def coversLegacy (validator : Validator) (schema : Schema) (spec : FieldSpec)
    (data : Option (KeyMap Json)) : Bool :=
  validator.settings.acceptLegacyData &&
    spec.promotedFrom.any fun origin =>
      decide (schema.version.toNat - origin.sinceVersion.toNat ≤
        validator.settings.compatibilityWindow.toNat) && data.any (·.contains origin.dataKey)

/-- The failure of a declared field. -/
def fieldFailures (validator : Validator) (schema : Schema) (object : KeyMap Json)
    (field : String) (spec : FieldSpec) : List ViolationKind :=
  match object.get? field with
  | some value => if spec.kind.fits value then [] else [.fieldType]
  | none =>
    if spec.required && !validator.coversLegacy schema spec (dataOf? object) then [.missingField]
    else []

/-- The failures of an object of a type: its content, its value, its declared fields, its other
keys, its `data`. -/
def failures (validator : Validator) (schema : Schema) (object : KeyMap Json) :
    List ViolationKind :=
  (if schema.contentClass.fits object then [] else [.contentShape]) ++
  (if schema.contentClass = .leaf ∧
      (object.get? "value").any (fun value => !schema.kindOfValue.fits value) then [.fieldType]
    else []) ++
  schema.fields.entries.flatMap (fun (field, spec) =>
    validator.fieldFailures schema object field spec) ++
  (object.keys.filter fun key => !isBaseKey key && !schema.fields.contains key).map
    (fun _ => .unexpectedField) ++
  (if (object.get? "data").any (fun value => value.map?.isNone) then [.fieldType] else [])

/-- The failure of a value where a container has to accept it: its type is known, and of a
category that the container does not accept. -/
def refusals (validator : Validator) (parent : Option Schema) (child : Json) :
    List ViolationKind :=
  if (parent.bind fun parent => (child.map?.bind validator.schemaOf?).map
      fun schema => !parent.childClass.accepts schema.category).getD false
  then [.invalidChildClass] else []

variable {validator : Validator} {schema : Schema} {object : KeyMap Json}

/-! ## Objects without failures -/

/-- The object keeps all rules of a type. -/
structure Admits (validator : Validator) (schema : Schema) (object : KeyMap Json) : Prop where
  content : schema.contentClass.fits object = true
  value : schema.contentClass = .leaf → ∀ value, object.get? "value" = some value →
    schema.kindOfValue.fits value = true
  fields : ∀ field spec value, schema.fields.get? field = some spec →
    object.get? field = some value → spec.kind.fits value = true
  required : ∀ field spec, schema.fields.get? field = some spec → spec.required = true →
    object.get? field = none → validator.coversLegacy schema spec (dataOf? object) = true
  declared : ∀ key value, object.get? key = some value → isBaseKey key = false →
    ∃ spec, schema.fields.get? key = some spec
  data : ∀ value, object.get? "data" = some value → ∃ data, value.map? = some data

theorem fieldFailures_eq_nil_iff {field : String} {spec : FieldSpec} :
    validator.fieldFailures schema object field spec = [] ↔
      (∀ value, object.get? field = some value → spec.kind.fits value = true) ∧
        (spec.required = true → object.get? field = none →
          validator.coversLegacy schema spec (dataOf? object) = true) := by
  unfold fieldFailures
  cases object.get? field with
  | none => cases spec.required <;> simp
  | some value => simp

theorem failures_eq_nil_iff :
    validator.failures schema object = [] ↔ validator.Admits schema object := by
  have undeclared :
      ((object.keys.filter fun key => !isBaseKey key && !schema.fields.contains key).map
        fun _ => ViolationKind.unexpectedField) = [] ↔
      ∀ key value, object.get? key = some value → isBaseKey key = false →
        ∃ spec, schema.fields.get? key = some spec := by
    simp only [List.map_eq_nil_iff, List.filter_eq_nil_iff, KeyMap.mem_keys_iff,
      Bool.and_eq_true, Bool.not_eq_true', KeyMap.contains_eq_false_iff, not_and,
      Option.ne_none_iff_exists', forall_exists_index]
  have fields : schema.fields.entries.flatMap (fun (field, spec) =>
        validator.fieldFailures schema object field spec) = [] ↔
      ∀ field spec, schema.fields.get? field = some spec →
        validator.fieldFailures schema object field spec = [] := by
    simp only [List.flatMap_eq_nil_iff, Prod.forall, KeyMap.mem_entries_iff]
  have value : (if schema.contentClass = .leaf ∧
        (object.get? "value").any (fun value => !schema.kindOfValue.fits value) then
          [ViolationKind.fieldType] else []) = [] ↔
      (schema.contentClass = .leaf → ∀ value, object.get? "value" = some value →
        schema.kindOfValue.fits value = true) := by
    cases object.get? "value" <;> simp
  have data : (if (object.get? "data").any (fun value => value.map?.isNone) then
        [ViolationKind.fieldType] else []) = [] ↔
      ∀ value, object.get? "data" = some value → ∃ data, value.map? = some data := by
    cases object.get? "data" <;> simp [Option.ne_none_iff_exists']
  unfold failures
  simp only [List.append_eq_nil_iff, undeclared, fields, value, data, fieldFailures_eq_nil_iff]
  constructor
  · rintro ⟨⟨⟨⟨content, value⟩, fields⟩, declared⟩, data⟩
    exact ⟨by simpa using content, value, fun field spec value known =>
      (fields field spec known).1 value, fun field spec known => (fields field spec known).2,
      declared, data⟩
  · intro h
    exact ⟨⟨⟨⟨by simp [h.content], h.value⟩, fun field spec known =>
      ⟨fun value => h.fields field spec value known, h.required field spec known⟩⟩, h.declared⟩,
      h.data⟩

theorem missingField_mem_fieldFailures_iff {field : String} {spec : FieldSpec} :
    .missingField ∈ validator.fieldFailures schema object field spec ↔
      spec.required = true ∧ object.get? field = none ∧
        validator.coversLegacy schema spec (dataOf? object) = false := by
  unfold fieldFailures
  cases object.get? field with
  | none => cases spec.required <;> simp
  | some value => cases spec.kind.fits value <;> simp

theorem missingField_mem_failures_iff :
    .missingField ∈ validator.failures schema object ↔
      ∃ field spec, schema.fields.get? field = some spec ∧ spec.required = true ∧
        object.get? field = none ∧
        validator.coversLegacy schema spec (dataOf? object) = false := by
  simp [failures, KeyMap.mem_entries_iff, missingField_mem_fieldFailures_iff]

/-- When `data` makes up for an absent field. -/
theorem coversLegacy_iff {spec : FieldSpec} {data : Option (KeyMap Json)} :
    validator.coversLegacy schema spec data = true ↔
      validator.settings.acceptLegacyData = true ∧ ∃ origin, spec.promotedFrom = some origin ∧
        schema.version.toNat - origin.sinceVersion.toNat ≤
          validator.settings.compatibilityWindow.toNat ∧
        data.any (·.contains origin.dataKey) = true := by
  unfold coversLegacy
  cases spec.promotedFrom <;> simp

/-! ## The checks of the rules -/

theorem typeOf_eq_ok_iff :
    validator.typeOf object = .ok schema ↔ validator.schemaOf? object = some schema := by
  unfold typeOf schemaOf?
  cases object.get? "type" with
  | none => simp
  | some found =>
    cases found <;> simp [Json.string?]
    split <;> simp_all

theorem typeOf_eq_error {breach : Breach} {name : Option String}
    (h : validator.typeOf object = .error (breach, name)) :
    validator.schemaOf? object = none ∧ breach.kind = .unknownType := by
  have unknown : ∀ schema, validator.schemaOf? object ≠ some schema := fun schema named => by
    rw [typeOf_eq_ok_iff.2 named] at h
    cases h
  refine ⟨Option.eq_none_iff_forall_ne_some.2 unknown, ?_⟩
  unfold typeOf at h
  repeat' split at h
  all_goals cases h
  all_goals rfl

theorem kinds_contentBreach (schema : Schema) (object : KeyMap Json) :
    (contentBreach? schema object).toList.map Breach.kind =
      if schema.contentClass.fits object then [] else [.contentShape] := by
  unfold contentBreach? ContentClass.fits KeyMap.contains
  generalize object.get? "children" = children, object.get? "value" = value
  cases schema.contentClass <;> cases value <;> cases children with
  | none => rfl
  | some found => cases found <;> rfl

theorem kinds_valueBreach (schema : Schema) (object : KeyMap Json) :
    (valueBreach? schema object).toList.map Breach.kind =
      if schema.contentClass = .leaf ∧
          (object.get? "value").any (fun value => !schema.kindOfValue.fits value) then [.fieldType]
      else [] := by
  unfold valueBreach?
  by_cases leaf : schema.contentClass = .leaf
  · cases object.get? "value" with
    | none => simp
    | some value => cases fit : schema.kindOfValue.fits value <;> simp [leaf, fit, Breach.kind]
  · simp [leaf]

theorem kinds_dataBreach (object : KeyMap Json) :
    (dataBreach? object).toList.map Breach.kind =
      if (object.get? "data").any (fun value => value.map?.isNone) then [.fieldType] else [] := by
  unfold dataBreach?
  cases object.get? "data" with
  | none => rfl
  | some found => cases found <;> rfl

theorem isSome_legacyKey (validator : Validator) (schema : Schema) (spec : FieldSpec)
    (object : KeyMap Json) :
    (validator.legacyKey? schema spec object).isSome =
      validator.coversLegacy schema spec (dataOf? object) := by
  unfold legacyKey? coversLegacy dataOf?
  cases promoted : spec.promotedFrom with
  | none => simp
  | some origin =>
    cases found : object.get? "data" with
    | none => simp
    | some value =>
      cases read : value.map? with
      | none => simp [read]
      | some data =>
        rw [Bool.eq_iff_iff]
        simp [read]

theorem kinds_childBreach (validator : Validator) (parent : Schema) (place : Nat) (child : Json) :
    (validator.childBreach? parent place child).toList.map (·.1.kind) =
      validator.refusals (some parent) child := by
  unfold childBreach? refusals schemaOf?
  cases read : child.map? with
  | none => simp
  | some object =>
    cases found : object.get? "type" with
    | none => simp [found]
    | some value =>
      cases named : value.string? with
      | none => simp [found, named]
      | some name =>
        cases known : validator.registry.get? name with
        | none => simp [found, named, known]
        | some schema =>
          cases accepted : parent.childClass.accepts schema.category <;>
            simp [found, named, known, accepted, Breach.kind]

/-- An object of a registered type above the depth limit is checked by the rules of its type. -/
theorem check_succ {levels : Nat} {path : Path} {value : Json} (read : value.map? = some object)
    (known : validator.schemaOf? object = some schema) :
    validator.check (levels + 1) path value =
      validator.checkNode (validator.check levels) path schema object := by
  rw [check, read]
  simp only [typeOf_eq_ok_iff.2 known]

/-- An object without a registered type is refused for that. -/
theorem check_succ_of_unknown (levels : Nat) (path : Path) {value : Json}
    (read : value.map? = some object) (unknown : validator.schemaOf? object = none) :
    ∃ violation : Violation, validator.check (levels + 1) path value = .refused violation ∧
      violation.path = path ∧ violation.kind = .unknownType := by
  rw [check, read]
  cases typed : validator.typeOf object with
  | ok schema => simp [typeOf_eq_ok_iff.1 typed] at unknown
  | error found =>
    simp only [typed]
    exact ⟨found.1.violation path found.2, rfl, rfl, (typeOf_eq_error typed).2⟩

end Validator
end DocTree
