import DocTree.Decode.Text
import DocTree.Schema.Check
import DocTree.Schema.Reference
import DocTree.Schema.Successor

/-!
# The registry of types

A registry holds one schema for each type name. A schema enters when it is sound, and takes the
place of an earlier one of its name only as a compatible successor.

## Main definitions

- `Registry`: the schemas by name.
- `Registry.register`, `Registry.registerAll`, `Registry.load`: entering one schema, a list, and
  the schemas of a text.
- `Registry.inlineVariant?`: the inline counterpart of a block type.
-/

namespace DocTree

/-- Why a registry refuses a request. -/
inductive RegistryError where
  | incompatible (name : String) (reason : Incompatibility)
  | unknownType (name : String)
  | invalidName (name : String)
  | unsound (name : String) (flaw : SchemaFlaw)
deriving Repr

/-- The words for a refusal. -/
def RegistryError.message : RegistryError → String
  | .incompatible name reason =>
    "Type '" ++ name ++ "' is already registered with an incompatible schema: " ++ reason.message
  | .unknownType name => "Unknown node type: " ++ name
  | .invalidName name => "Invalid type name '" ++ name ++ "': expected [A-Z][A-Za-z0-9]*"
  | .unsound name flaw => "Invalid schema for '" ++ name ++ "': " ++ flaw.message

/-- What registering a schema came to. -/
inductive Registration where
  | inserted
  | unchanged
  | upgraded (earlier later : UInt32)
deriving DecidableEq, Repr

/-- The schemas of types, by name. -/
structure Registry where
  schemas : KeyMap Schema

namespace Registry

/-- The registry without types. -/
def empty : Registry := ⟨.empty⟩

instance : Inhabited Registry := ⟨empty⟩

/-- The schema of a type. -/
def get? (registry : Registry) (name : String) : Option Schema := registry.schemas.get? name

/-- The schema of a type that has to be known. -/
def resolve (registry : Registry) (name : String) : Except RegistryError Schema :=
  match registry.get? name with
  | some schema => .ok schema
  | none => .error (.unknownType name)

/-- What registering a sound schema comes to, by the schema of its name so far. -/
def outcomeOf (current : Option Schema) (schema : Schema) : Except RegistryError Registration :=
  match current with
  | none => .ok .inserted
  | some current =>
    if current == schema then .ok .unchanged
    else match current.incompatibility? schema with
      | some reason => .error (.incompatible schema.name reason)
      | none => .ok (.upgraded current.version schema.version)

/-- Enters a schema. -/
def register (registry : Registry) (schema : Schema) :
    Except RegistryError (Registration × Registry) :=
  if !isTypeName schema.name then .error (.invalidName schema.name)
  else match schema.flaw? with
    | some flaw => .error (.unsound schema.name flaw)
    | none => do
      match ← outcomeOf (registry.get? schema.name) schema with
      | .unchanged => return (.unchanged, registry)
      | outcome => return (outcome, ⟨registry.schemas.insert schema.name schema⟩)

/-- Enters schemas up to the first that is refused, and counts those that changed the registry.
The schemas before a refused one stay. -/
def registerAll (registry : Registry) : List Schema → Except RegistryError Nat × Registry
  | [] => (.ok 0, registry)
  | schema :: schemas =>
    match registry.register schema with
    | .error e => (.error e, registry)
    | .ok (outcome, registry) =>
      let (count, registry) := registry.registerAll schemas
      (count.map (· + if outcome = .unchanged then 0 else 1), registry)

/-- The registry of the reference types. -/
def reference : Registry := (empty.registerAll Schema.reference).2

/-! ## Schemas from text -/

/-- Why the schemas of a text are refused. -/
inductive LoadError where
  | malformed (defect : TextDefect)
  | refused (error : RegistryError)
deriving Repr

/-- Enters the schemas of a text, which is a JSON array of them. -/
def load (registry : Registry) (text : String) : Except LoadError Nat × Registry :=
  match TextDecoder.run (TextDecoder.list Schema.decode) text with
  | .error defect => (.error (.malformed defect), registry)
  | .ok schemas =>
    let (count, registry) := registry.registerAll schemas
    (count.mapError .refused, registry)

/-! ## Types and their variants -/

/-- The names of all types, in order. -/
def names (registry : Registry) : List String := registry.schemas.keys

/-- The category of a type. -/
def category? (registry : Registry) (name : String) : Option Category :=
  (registry.get? name).map (·.category)

/-- The block type whose inline counterpart a type is. -/
def blockOf? (registry : Registry) (name : String) : Option Schema := do
  let variant ← registry.get? name
  let root ← inlineRoot? name
  if variant.category = .inline then
    (registry.get? root).filter (·.category = .block)
  else none

/-- The inline counterpart of a block type. -/
def inlineVariant? (registry : Registry) (name : String) : Option Schema := do
  let variant := inlineMark ++ name
  let _ ← registry.blockOf? variant
  registry.get? variant

end Registry
end DocTree
