import DocTree.Decode.Format

/-!
# The vocabulary of schemas

## Main definitions

- `ContentClass`: whether a node carries a value, children, or neither.
- `Category`, `ChildClass`: the level of a type, and the levels that a container accepts.
- `FieldKind`: the JSON shape of a field.
- `isBaseKey`, `isTypeName`: the keys of every node, and the names that types may have.
-/

namespace DocTree

/-! ## Names -/

/-- The keys that any node may carry, whatever its schema. -/
def baseKeys : List String := ["type", "children", "value", "data"]

/-- Whether a key is one of the base keys. -/
def isBaseKey (key : String) : Bool := baseKeys.contains key

/-- Whether a name may name a type: an ASCII capital, then ASCII letters and digits. -/
def isTypeName (name : String) : Bool :=
  match name.toList with
  | [] => false
  | c :: rest => c.isUpper && rest.all Char.isAlphanum

/-- What begins the name of the inline counterpart of a block type. -/
def inlineMark : String := "Inline"

/-- The rest of a name that begins with the inline mark and goes on. -/
def inlineRoot? (name : String) : Option String :=
  if inlineMark.toList.isPrefixOf name.toList then
    let root := name.toList.drop inlineMark.length
    if root.isEmpty then none else some (String.ofList root)
  else none

/-! ## Content -/

/-- What a node of a type carries. -/
inductive ContentClass where
  /-- A `value`, and no `children`. -/
  | leaf
  /-- `children`, and no `value`. -/
  | container
  /-- Neither. -/
  | empty
deriving DecidableEq, Repr

namespace ContentClass

/-- The written name. -/
def name : ContentClass → String
  | .leaf => "leaf"
  | .container => "container"
  | .empty => "empty"

/-- Reads a content class. -/
def decode {m : Type → Type} [Format m] : m ContentClass :=
  Format.choice ([leaf, container, empty].map fun c => (c.name, c))

end ContentClass

/-! ## Levels -/

/-- The structural level of a type. -/
inductive Category where
  /-- A unit of the document that stands alone. -/
  | block
  /-- Content that flows within a block. -/
  | inline
deriving DecidableEq, Repr

namespace Category

/-- The written name. -/
def name : Category → String
  | .block => "block"
  | .inline => "inline"

/-- Reads a category. -/
def decode {m : Type → Type} [Format m] : m Category :=
  Format.choice ([block, inline].map fun c => (c.name, c))

/-- The category of a type whose description names none. -/
def impliedBy (typeName : String) : Category :=
  if (inlineRoot? typeName).isSome then .inline else .block

end Category

/-- The children that a container accepts. -/
inductive ChildClass where
  | block
  | inline
  | any
deriving DecidableEq, Repr

namespace ChildClass

/-- The written name. -/
def name : ChildClass → String
  | .block => "block"
  | .inline => "inline"
  | .any => "any"

/-- Reads a child class. -/
def decode {m : Type → Type} [Format m] : m ChildClass :=
  Format.choice ([block, inline, any].map fun c => (c.name, c))

/-- Whether children of a category are accepted. -/
def accepts : ChildClass → Category → Bool
  | .any, _ => true
  | .block, category => category = .block
  | .inline, category => category = .inline

end ChildClass

/-! ## Shapes of fields -/

/-- The JSON shape that a field must have. -/
inductive FieldKind where
  | string
  | number
  | boolean
  | object
  /-- An array of nodes, each of them checked as a node. -/
  | nodeList
  /-- A string, a number or a boolean. -/
  | scalar
deriving DecidableEq, Repr

namespace FieldKind

/-- All kinds. -/
def all : List FieldKind := [string, number, boolean, object, nodeList, scalar]

/-- The written name. -/
def name : FieldKind → String
  | .string => "string"
  | .number => "number"
  | .boolean => "boolean"
  | .object => "object"
  | .nodeList => "nodeList"
  | .scalar => "scalar"

/-- Reads a kind. -/
def decode {m : Type → Type} [Format m] : m FieldKind :=
  Format.choice (all.map fun kind => (kind.name, kind))

/-- Whether a value has the shape. The elements of a node list are not looked at. -/
def fits : FieldKind → Json → Bool
  | .string, .string _ => true
  | .number, .number _ => true
  | .boolean, .bool _ => true
  | .object, .object _ => true
  | .nodeList, .array _ => true
  | .scalar, .string _ => true
  | .scalar, .number _ => true
  | .scalar, .bool _ => true
  | _, _ => false

end FieldKind
end DocTree
