import DocTree.Json.Printer
import DocTree.Schema.Kinds

/-!
# Schemas

A schema describes one type of node: what its nodes carry, which fields they may or must have,
and which children they accept. A field may have been promoted from the `data` of older
documents.

## Main definitions

- `FieldSpec`, `Schema`: the declaration of a field, and of a type.
- `Schema.decode`, `Schema.toJson`: the JSON form, read and written.
- `Schema.leaf`, `Schema.container`, `Schema.empty`: schemas without fields.
-/

namespace DocTree

/-- Where a field was kept before it was declared: under a key of `data`, up to a version. -/
structure PromotionOrigin where
  dataKey : String
  sinceVersion : UInt32
deriving DecidableEq, Repr

/-- The declaration of a field. The default is what a reader of an absent field is given. -/
structure FieldSpec where
  kind : FieldKind
  required : Bool := false
  defaultValue : Option Json := none
  promotedFrom : Option PromotionOrigin := none
deriving BEq, Repr

/-- The schema of a type. Without a child class any child is accepted, and without a value kind
the value is a string. -/
structure Schema where
  name : String
  version : UInt32 := 1
  category : Category
  contentClass : ContentClass
  fields : KeyMap FieldSpec := .empty
  childContentClass : Option ChildClass := none
  valueKind : Option FieldKind := none
deriving BEq

namespace Schema

/-- The children that nodes accept. -/
def childClass (schema : Schema) : ChildClass := schema.childContentClass.getD .any

/-- The kind of `value`. -/
def kindOfValue (schema : Schema) : FieldKind := schema.valueKind.getD .string

/-- A type whose nodes carry a value. -/
def leaf (name : String) (category : Category) : Schema :=
  { name, category, contentClass := .leaf }

/-- A type whose nodes carry children of a class. -/
def container (name : String) (category : Category) (children : ChildClass) : Schema :=
  { name, category, contentClass := .container, childContentClass := some children }

/-- A type whose nodes carry neither. -/
def empty (name : String) (category : Category) : Schema :=
  { name, category, contentClass := .empty }

/-- The schema with one more field. -/
def withField (schema : Schema) (name : String) (spec : FieldSpec) : Schema :=
  { schema with fields := schema.fields.insert name spec }

end Schema

/-! ## Reading -/

section decode

variable {m : Type → Type} [Format m]

open Format

/-- Reads the origin of a promoted field. -/
def PromotionOrigin.decode : m PromotionOrigin :=
  record "PromotedFrom"
    [ slot "dataKey" .refused string fun dataKey origin => { origin with dataKey },
      slot "sinceVersion" .refused word fun sinceVersion origin => { origin with sinceVersion } ]
    ⟨"", 0⟩

/-- Reads the declaration of a field. -/
def FieldSpec.decode : m FieldSpec :=
  record "FieldSpec"
    [ slot "kind" .refused FieldKind.decode fun kind spec => { spec with kind },
      slot "required" .allowed boolean fun required spec => { spec with required },
      slot "defaultValue" .allowed (optional json)
        fun defaultValue spec => { spec with defaultValue },
      slot "promotedFrom" .allowed (optional PromotionOrigin.decode)
        fun promotedFrom spec => { spec with promotedFrom } ]
    { kind := .string }

/-- A schema as it is described, where the category may be left to the name. -/
structure DescribedSchema where
  category : Option Category
  schema : Schema

namespace DescribedSchema

/-- The described schema. -/
def toSchema (description : DescribedSchema) : Schema :=
  let schema := description.schema
  { schema with category := description.category.getD (.impliedBy schema.name) }

/-- A slot of the schema that is described. -/
def part {α : Type} (name : String) (absence : Absence) (value : m α)
    (set : α → Schema → Schema) : Slot m DescribedSchema :=
  slot name absence value fun a description =>
    { description with schema := set a description.schema }

/-- Reads a description. -/
def decode : m DescribedSchema :=
  record "SchemaDescription"
    [ part "name" .refused string fun name schema => { schema with name },
      part "version" .allowed word fun version schema => { schema with version },
      slot "category" .allowed (optional Category.decode)
        fun category description => { description with category },
      part "contentClass" .refused ContentClass.decode
        fun contentClass schema => { schema with contentClass },
      part "fields" .allowed (table FieldSpec.decode) fun fields schema => { schema with fields },
      part "childContentClass" .allowed (optional ChildClass.decode)
        fun childContentClass schema => { schema with childContentClass },
      part "valueKind" .allowed (optional FieldKind.decode)
        fun valueKind schema => { schema with valueKind } ]
    ⟨none, .leaf "" .block⟩

end DescribedSchema

/-- Reads a schema. -/
def Schema.decode : m Schema := map DescribedSchema.toSchema DescribedSchema.decode

end decode

/-! ## Writing -/

/-- A member that is left out when there is no value. -/
def optionalMember {α : Type} (key : String) (form : α → Json) : Option α → List (String × Json)
  | none => []
  | some value => [(key, form value)]

/-- The JSON form of a version. -/
def versionJson (version : UInt32) : Json := .number (.int version.toNat)

/-- The JSON form of the origin of a promoted field. -/
def PromotionOrigin.toJson (origin : PromotionOrigin) : Json :=
  .object [("dataKey", .string origin.dataKey), ("sinceVersion", versionJson origin.sinceVersion)]

/-- The JSON form of the declaration of a field, in the order in which it is written. -/
def FieldSpec.toJson (spec : FieldSpec) : Json :=
  .object <|
    [("kind", .string spec.kind.name), ("required", .bool spec.required)] ++
    optionalMember "defaultValue" id spec.defaultValue ++
    optionalMember "promotedFrom" PromotionOrigin.toJson spec.promotedFrom

/-- The JSON form of a schema, in the order in which it is written. -/
def Schema.toJson (schema : Schema) : Json :=
  .object <|
    [ ("name", .string schema.name),
      ("version", versionJson schema.version),
      ("category", .string schema.category.name),
      ("contentClass", .string schema.contentClass.name),
      ("fields", .object (schema.fields.entries.map fun (name, spec) => (name, spec.toJson))) ] ++
    optionalMember "childContentClass" (fun c => .string c.name) schema.childContentClass ++
    optionalMember "valueKind" (fun kind => .string kind.name) schema.valueKind

end DocTree
