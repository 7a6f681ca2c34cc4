import DocTree.Schema.Basic
import DocTree.Violation

/-!
# Breaches

## Main definitions

- `Breach`: a rule that a value breaks, with its kind and its words.
- `Breach.violation`: the violation of a breach at a place.
-/

namespace DocTree

/-- A rule that a value breaks where a node is expected. -/
inductive Breach where
  | notNode (found : Json)
  | tooDeep (maxDepth : Nat)
  | typeAbsent
  | typeNotString (found : Json)
  | typeUnknown (name : String)
  | valueAndChildren
  | leafWithChildren (name : String)
  | leafWithoutValue (name : String)
  | containerWithValue (name : String)
  | containerWithoutChildren (name : String)
  | childrenNotArray (found : Json)
  | contentInEmpty (name : String)
  | valueOfOtherKind (kind : FieldKind) (found : Json)
  | fieldOfOtherKind (field : String) (kind : FieldKind) (found : Json)
  | fieldAbsent (field : String)
  | fieldUndeclared (field name : String)
  | dataNotObject (found : Json)
  | childRefused (place : Nat) (child : Schema) (parent : Schema) (instead : Option String)

namespace Breach

/-- The kind of a breach. -/
def kind : Breach → ViolationKind
  | .notNode _ => .contentShape
  | .tooDeep _ => .depthLimit
  | .typeAbsent => .unknownType
  | .typeNotString _ => .unknownType
  | .typeUnknown _ => .unknownType
  | .valueAndChildren => .contentShape
  | .leafWithChildren _ => .contentShape
  | .leafWithoutValue _ => .contentShape
  | .containerWithValue _ => .contentShape
  | .containerWithoutChildren _ => .contentShape
  | .childrenNotArray _ => .contentShape
  | .contentInEmpty _ => .contentShape
  | .valueOfOtherKind _ _ => .fieldType
  | .fieldOfOtherKind _ _ _ => .fieldType
  | .fieldAbsent _ => .missingField
  | .fieldUndeclared _ _ => .unexpectedField
  | .dataNotObject _ => .fieldType
  | .childRefused _ _ _ _ => .invalidChildClass

/-- The words for a breach. -/
def message : Breach → String
  | .notNode found => "expected a node object, found " ++ found.kindName
  | .tooDeep maxDepth => "tree is nested deeper than " ++ maxDepth.repr ++ " levels"
  | .typeAbsent => "node has no `type`"
  | .typeNotString found => "`type` must be a string, found " ++ found.kindName
  | .typeUnknown name => "type '" ++ name ++ "' is not registered"
  | .valueAndChildren => "node has both `children` and `value`; exactly one is allowed"
  | .leafWithChildren name => "leaf type '" ++ name ++ "' takes `value`, not `children`"
  | .leafWithoutValue name => "leaf type '" ++ name ++ "' requires `value`"
  | .containerWithValue name =>
    "container type '" ++ name ++ "' takes `children`, not `value`"
  | .containerWithoutChildren name => "container type '" ++ name ++ "' requires `children`"
  | .childrenNotArray found => "`children` must be an array, found " ++ found.kindName
  | .contentInEmpty name =>
    "content-free type '" ++ name ++ "' takes neither `children` nor `value`"
  | .valueOfOtherKind kind found =>
    "`value` must be " ++ kind.name ++ ", found " ++ found.kindName
  | .fieldOfOtherKind field kind found =>
    "field '" ++ field ++ "' must be " ++ kind.name ++ ", found " ++ found.kindName
  | .fieldAbsent field => "required field '" ++ field ++ "' is missing"
  | .fieldUndeclared field name =>
    "field '" ++ field ++ "' is not declared by '" ++ name ++
      "'; extensions belong under `data`"
  | .dataNotObject found => "`data` must be an object, found " ++ found.kindName
  | .childRefused place child parent instead =>
    "child " ++ place.repr ++ " '" ++ child.name ++ "' is " ++ child.category.name ++
      " content but '" ++ parent.name ++ "' accepts only " ++ parent.childClass.name ++
      " children" ++
      (match instead with
        | some name => "; use '" ++ name ++ "' instead"
        | none => "")

/-- The violation of a breach at a place, by a node of a type. -/
def violation (breach : Breach) (path : Path) (typeName : Option String) : Violation :=
  ⟨path, breach.kind, breach.message, typeName⟩

end Breach
end DocTree
