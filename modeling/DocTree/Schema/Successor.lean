import DocTree.Schema.Basic

/-!
# Compatible successors

A later version of a schema may take its place when documents that were valid stay valid: the
type keeps its level, content, and fields with their kinds, nothing optional becomes required,
and a new required field has a place in `data` to be read from.

## Main definitions

- `Incompatibility`: why one schema may not follow another, and its message.
- `Schema.incompatibility?`: the first reason against a successor.
-/

namespace DocTree

/-- Why a schema may not take the place of another. -/
inductive Incompatibility where
  | notLater (next current : UInt32)
  | category (current next : Category)
  | contentClass (current next : ContentClass)
  | childClass (current next : ChildClass)
  | valueKind (current next : FieldKind)
  | fieldRemoved (field : String)
  | fieldKind (field : String) (current next : FieldKind)
  | fieldRequired (field : String)
  | newFieldRequired (field : String)
deriving DecidableEq, Repr

namespace Incompatibility

/-- The words for a reason. -/
def message : Incompatibility → String
  | .notLater next current =>
    "version " ++ next.toNat.repr ++ " does not supersede registered version " ++
      current.toNat.repr
  | .category current next => "category changed from " ++ current.name ++ " to " ++ next.name
  | .contentClass current next =>
    "content class changed from " ++ current.name ++ " to " ++ next.name
  | .childClass current next =>
    "child content class changed from " ++ current.name ++ " to " ++ next.name
  | .valueKind current next => "value kind changed from " ++ current.name ++ " to " ++ next.name
  | .fieldRemoved field => "field '" ++ field ++ "' was removed"
  | .fieldKind field current next =>
    "field '" ++ field ++ "' changed kind from " ++ current.name ++ " to " ++ next.name
  | .fieldRequired field => "optional field '" ++ field ++ "' became required"
  | .newFieldRequired field =>
    "new required field '" ++ field ++ "' has no data key to fall back on"

end Incompatibility

/-- Why a field may not be declared anew, or no longer. -/
def FieldSpec.incompatibility? (current : FieldSpec) (next : Option FieldSpec) (name : String) :
    Option Incompatibility :=
  match next with
  | none => some (.fieldRemoved name)
  | some next =>
    if next.kind ≠ current.kind then some (.fieldKind name current.kind next.kind)
    else if next.required ∧ !current.required then some (.fieldRequired name)
    else none

/-- Why a field may not be added. -/
def FieldSpec.additionRefused? (spec : FieldSpec) (name : String) : Option Incompatibility :=
  if spec.required ∧ spec.promotedFrom.isNone then some (.newFieldRequired name) else none

namespace Schema

/-- The first reason why a schema may not take the place of the current one. -/
def incompatibility? (current next : Schema) : Option Incompatibility :=
  if next.version ≤ current.version then some (.notLater next.version current.version)
  else if next.category ≠ current.category then some (.category current.category next.category)
  else if next.contentClass ≠ current.contentClass then
    some (.contentClass current.contentClass next.contentClass)
  else if next.childClass ≠ current.childClass then
    some (.childClass current.childClass next.childClass)
  else if next.contentClass = .leaf ∧ next.kindOfValue ≠ current.kindOfValue then
    some (.valueKind current.kindOfValue next.kindOfValue)
  else
    (current.fields.entries.findSome? fun (name, spec) =>
      spec.incompatibility? (next.fields.get? name) name) <|>
    (next.fields.entries.findSome? fun (name, spec) =>
      if current.fields.contains name then none else spec.additionRefused? name)

end Schema
end DocTree
