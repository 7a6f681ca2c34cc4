import DocTree.Schema.Basic

/-!
# Sound schemas

A schema is checked by itself before it is registered: its parts must fit its content class, its
name its category, and its fields the keys and versions that there are.

## Main definitions

- `SchemaFlaw`: what can be wrong with a schema by itself, and its message.
- `Schema.flaw?`: the first flaw of a schema.
-/

namespace DocTree

/-- What is wrong with a schema. -/
inductive SchemaFlaw where
  | childClassOutsideContainer (name : String) (content : ContentClass)
  | valueKindOutsideLeaf (name : String) (content : ContentClass)
  | valueNotScalar
  | inlineNameNotInline (name : String) (category : Category)
  | fieldIsBaseKey (field : String)
  | defaultOfOtherKind (field : String) (value : Json) (kind : FieldKind)
  | promotedInLaterVersion (field : String) (since version : UInt32)
deriving Repr

namespace SchemaFlaw

/-- The words for a flaw. -/
def message : SchemaFlaw → String
  | .childClassOutsideContainer name content =>
    "childContentClass is only meaningful for containers, '" ++ name ++ "' is " ++ content.name
  | .valueKindOutsideLeaf name content =>
    "valueKind is only meaningful for leaves, '" ++ name ++ "' is " ++ content.name
  | .valueNotScalar => "value must be a scalar kind"
  | .inlineNameNotInline name category =>
    "'" ++ name ++ "' uses the Inline prefix but is declared " ++ category.name
  | .fieldIsBaseKey field => "field '" ++ field ++ "' shadows a base node field"
  | .defaultOfOtherKind field value kind =>
    "default for field '" ++ field ++ "' is " ++ value.kindName ++ ", expected " ++ kind.name
  | .promotedInLaterVersion field since version =>
    "field '" ++ field ++ "' promoted in version " ++ since.toNat.repr ++
      " but schema is version " ++ version.toNat.repr

end SchemaFlaw

/-- The first flaw of a field in a schema of the given version. -/
def FieldSpec.flaw? (spec : FieldSpec) (version : UInt32) (name : String) : Option SchemaFlaw :=
  if isBaseKey name then some (.fieldIsBaseKey name)
  else
    (spec.defaultValue.bind fun value =>
      if spec.kind.fits value then none else some (.defaultOfOtherKind name value spec.kind)) <|>
    (spec.promotedFrom.bind fun origin =>
      if version < origin.sinceVersion then
        some (.promotedInLaterVersion name origin.sinceVersion version)
      else none)

namespace Schema

/-- The first flaw of a schema. -/
def flaw? (schema : Schema) : Option SchemaFlaw :=
  if schema.contentClass ≠ .container ∧ schema.childContentClass.isSome then
    some (.childClassOutsideContainer schema.name schema.contentClass)
  else if schema.contentClass ≠ .leaf ∧ schema.valueKind.isSome then
    some (.valueKindOutsideLeaf schema.name schema.contentClass)
  else if schema.valueKind = some .nodeList ∨ schema.valueKind = some .object then
    some .valueNotScalar
  else if (inlineRoot? schema.name).isSome ∧ schema.category ≠ .inline then
    some (.inlineNameNotInline schema.name schema.category)
  else
    schema.fields.entries.findSome? fun (name, spec) => spec.flaw? schema.version name

end Schema
end DocTree
