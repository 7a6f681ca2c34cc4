import DocTree.Notice
import DocTree.Registry
import DocTree.Settings
import DocTree.Validation.Breach

/-!
# Validation

A JSON value is a valid document when it and all nodes below it, among its children and in its
lists of nodes, keep the rules of their types. All breaches are reported, in document order; a
document without any is a tree of nodes.

## Main definitions

- `Findings`: the violations and notices of a part of a document.
- `Validator.checkFields`, `Validator.checkNode`: the rules of one object, given a check of the
  values below it.
- `Validator.check`: the check of a value, down to a depth.
- `Validator.validate`: the tree of a document, or the report on it.
-/

namespace DocTree

/-- The violations and the notices of a part of a document. -/
structure Findings where
  violations : List Violation := []
  notices : List Notice := []

namespace Findings

instance : Append Findings :=
  ⟨fun x y => ⟨x.violations ++ y.violations, x.notices ++ y.notices⟩⟩

/-- The findings of several parts, in order. Those of a single part are handed on as they are. -/
def join : List Findings → Findings
  | [part] => part
  | parts => ⟨parts.flatMap (·.violations), parts.flatMap (·.notices)⟩

/-- One violation. -/
def violation (violation : Violation) : Findings := { violations := [violation] }

@[simp] theorem violations_append (x y : Findings) :
    (x ++ y).violations = x.violations ++ y.violations := rfl

@[simp] theorem notices_append (x y : Findings) : (x ++ y).notices = x.notices ++ y.notices := rfl

@[simp] theorem violations_join (parts : List Findings) :
    (join parts).violations = parts.flatMap (·.violations) := by
  unfold join
  split <;> simp

@[simp] theorem notices_join (parts : List Findings) :
    (join parts).notices = parts.flatMap (·.notices) := by
  unfold join
  split <;> simp

end Findings

/-- What checking a value came to: its findings, and its node if there are no violations. -/
structure Verdict where
  node : Option Node
  findings : Findings

namespace Verdict

/-- The verdict on a value with one violation, whose parts are not looked at. -/
def refused (violation : Violation) : Verdict := ⟨none, .violation violation⟩

end Verdict

/-- What a document is checked against. -/
structure Validator where
  registry : Registry
  settings : ValidationSettings := {}

namespace Validator

/-! ## The rules of one object -/

/-- The schema that an object names, or the breach of naming none. -/
def typeOf (validator : Validator) (object : KeyMap Json) :
    Except (Breach × Option String) Schema :=
  match object.get? "type" with
  | none => .error (.typeAbsent, none)
  | some (.string name) =>
    match validator.registry.get? name with
    | some schema => .ok schema
    | none => .error (.typeUnknown name, some name)
  | some found => .error (.typeNotString found, none)

/-- The breach of carrying other content than a type has. -/
def contentBreach? (schema : Schema) (object : KeyMap Json) : Option Breach :=
  match schema.contentClass, object.get? "children", object.contains "value" with
  | _, some _, true => some .valueAndChildren
  | .leaf, some _, false => some (.leafWithChildren schema.name)
  | .leaf, none, false => some (.leafWithoutValue schema.name)
  | .leaf, none, true => none
  | .container, none, true => some (.containerWithValue schema.name)
  | .container, none, false => some (.containerWithoutChildren schema.name)
  | .container, some (.array _), false => none
  | .container, some found, false => some (.childrenNotArray found)
  | .empty, some _, false => some (.contentInEmpty schema.name)
  | .empty, none, true => some (.contentInEmpty schema.name)
  | .empty, none, false => none

/-- The breach of a leaf whose value is of another kind. -/
def valueBreach? (schema : Schema) (object : KeyMap Json) : Option Breach :=
  if schema.contentClass = .leaf then
    (object.get? "value").bind fun value =>
      if schema.kindOfValue.fits value then none
      else some (.valueOfOtherKind schema.kindOfValue value)
  else none

/-- The breach of `data` that is no object. -/
def dataBreach? (object : KeyMap Json) : Option Breach :=
  match object.get? "data" with
  | none => none
  | some (.object _) => none
  | some found => some (.dataNotObject found)

/-- The keys that are no base keys and that a type does not declare. -/
def undeclaredKeys (schema : Schema) (object : KeyMap Json) : List String :=
  object.keys.filter fun key => !isBaseKey key && !schema.fields.contains key

/-- The key of `data` in which a promoted field may still be found, and is. -/
def legacyKey? (validator : Validator) (schema : Schema) (spec : FieldSpec)
    (object : KeyMap Json) : Option String := do
  let origin ← spec.promotedFrom
  let age := schema.version.toNat - origin.sinceVersion.toNat
  let data ← (← object.get? "data").map?
  if validator.settings.acceptLegacyData ∧
      age ≤ validator.settings.compatibilityWindow.toNat ∧ data.contains origin.dataKey then
    some origin.dataKey
  else none

/-- The breach of a child that a container does not accept. Children without a known type are
left to their own check. -/
def childBreach? (validator : Validator) (parent : Schema) (place : Nat) (child : Json) :
    Option (Breach × String) := do
  let name ← (← (← child.map?).get? "type").string?
  let schema ← validator.registry.get? name
  if parent.childClass.accepts schema.category then none
  else
    let instead := (validator.registry.inlineVariant? name).filter
      fun variant => parent.childClass.accepts variant.category
    some (.childRefused place schema parent (instead.map (·.name)), name)

/-! ## One object and the values below it -/

/-- The findings of a list of breaches by a node. -/
def breached (path : Path) (typeName : String) (breaches : List Breach) : Findings :=
  { violations := breaches.map (·.violation path (some typeName)) }

/-- The findings of a declared field. `check` is the check of the values below. -/
def checkField (validator : Validator) (check : Path → Json → Verdict) (path : Path)
    (schema : Schema) (object : KeyMap Json) (field : String) (spec : FieldSpec) : Findings :=
  match object.get? field with
  | some value =>
    if !spec.kind.fits value then
      breached path schema.name [.fieldOfOtherKind field spec.kind value]
    else if spec.kind = .nodeList then
      .join (((value.items?).getD []).mapIdx fun place item =>
        (check (path.element field place) item).findings)
    else {}
  | none =>
    if spec.required then
      match validator.legacyKey? schema spec object with
      | some key => { notices := [.legacyKeyRead schema.name field key] }
      | none => breached path schema.name [.fieldAbsent field]
    else {}

/-- The findings of an object apart from its children. -/
def checkFields (validator : Validator) (check : Path → Json → Verdict) (path : Path)
    (schema : Schema) (object : KeyMap Json) : Findings :=
  breached path schema.name
    ((contentBreach? schema object).toList ++ (valueBreach? schema object).toList) ++
  .join (schema.fields.entries.map fun (field, spec) =>
    validator.checkField check path schema object field spec) ++
  breached path schema.name
    ((undeclaredKeys schema object).map (fun key => .fieldUndeclared key schema.name) ++
      (dataBreach? object).toList)

/-- The verdict on a child: a container has to accept it, and it has to be valid by itself. -/
def checkChild (validator : Validator) (check : Path → Json → Verdict) (path : Path)
    (parent : Schema) (place : Nat) (child : Json) : Verdict :=
  let refusal := if parent.contentClass = .container then
      validator.childBreach? parent place child
    else none
  let verdict := check (path.child place) child
  let violations := refusal.toList.map fun (breach, name) =>
    breach.violation (path.child place) (some name)
  { verdict with findings := { violations } ++ verdict.findings }

/-- The node of an object that keeps all rules, over its children. -/
def nodeOf (schema : Schema) (object : KeyMap Json) (children : List Node) : Option Node :=
  let head : Head :=
    { typeName := schema.name,
      fields := object.filter fun key _ => !isBaseKey key,
      data := (object.get? "data").bind Json.map? }
  match schema.contentClass with
  | .leaf => (object.get? "value").map (.leaf head)
  | .container => some (.container head children)
  | .empty => some (.empty head)

/-- The verdict on an object of a type. An array of children is checked whatever else is wrong. -/
def checkNode (validator : Validator) (check : Path → Json → Verdict) (path : Path)
    (schema : Schema) (object : KeyMap Json) : Verdict :=
  let children := ((object.get? "children").bind Json.items?).getD []
  let verdicts := children.mapIdx fun place child =>
    validator.checkChild check path schema place child
  let findings := validator.checkFields check path schema object ++
    .join (verdicts.map (·.findings))
  let node := if findings.violations.isEmpty then
      nodeOf schema object (verdicts.filterMap (·.node))
    else none
  ⟨node, findings⟩

/-! ## Whole documents -/

/-- The verdict on a value, when nodes may nest so many levels deep. -/
def check (validator : Validator) : (levels : Nat) → Path → Json → Verdict
  | levels, path, value =>
    match value.map? with
    | none => .refused (Breach.violation (.notNode value) path none)
    | some object =>
      match levels with
      | 0 =>
        .refused (Breach.violation (.tooDeep validator.settings.maxDepth) path
          ((object.get? "type").bind Json.string?))
      | levels + 1 =>
        match validator.typeOf object with
        | .error (breach, name) => .refused (breach.violation path name)
        | .ok schema =>
          validator.checkNode (fun path value => validator.check levels path value) path
            schema object

/-- The verdict on a document. -/
def verdict (validator : Validator) (value : Json) : Verdict :=
  validator.check validator.settings.maxDepth .root value

/-- The tree of a document, or the report on it. -/
def validate (validator : Validator) (value : Json) : Noted (Except Report Node) :=
  let verdict := validator.verdict value
  let result := match verdict.node, verdict.findings.violations with
    | some node, [] => .ok node
    | _, violations => .error ⟨violations⟩
  ⟨result, verdict.findings.notices⟩

end Validator
end DocTree
