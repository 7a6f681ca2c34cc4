import DocTree.Decode.Format

/-!
# Mappings from data keys to fields

## Main definitions

- `Mapping`: which key of `data` belongs to which field.
-/

namespace DocTree

/-- The fields of data keys. -/
structure Mapping where
  fields : KeyMap String
deriving BEq

namespace Mapping

/-- The mapping of no keys. -/
def empty : Mapping := ⟨.empty⟩

instance : Inhabited Mapping := ⟨empty⟩

/-- The mapping with the field of a key. -/
def insert (mapping : Mapping) (dataKey field : String) : Mapping :=
  ⟨mapping.fields.insert dataKey field⟩

/-- The field of a key. -/
def get? (mapping : Mapping) (dataKey : String) : Option String := mapping.fields.get? dataKey

/-- The keys with their fields, in the order of the keys. -/
def pairs (mapping : Mapping) : List (String × String) := mapping.fields.entries

/-- The fields in the order of their keys. -/
def targets (mapping : Mapping) : List String := mapping.fields.values

/-- The mapping that pairs enter in turn. -/
def ofPairs (pairs : List (String × String)) : Mapping := ⟨.ofList pairs⟩

/-- The JSON form. -/
def toJson (mapping : Mapping) : Json :=
  .object (mapping.pairs.map fun (dataKey, field) => (dataKey, .string field))

/-- Reads a mapping. -/
def decode {m : Type → Type} [Format m] : m Mapping :=
  Format.map Mapping.mk (Format.table Format.string)

end Mapping
end DocTree
