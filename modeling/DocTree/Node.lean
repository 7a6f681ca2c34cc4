import DocTree.Json.Printer
import DocTree.Schema.Kinds

/-!
# Nodes

A document is a tree of nodes. A node carries children, a value, or neither; besides it has a
type, fields that its schema declares, and `data`, which is kept and never interpreted.

## Main definitions

- `Head`, `Node`: what every node has, and the node with its content.
- `Node.toJson`: the JSON form, an object with its keys in order.
- `Node.written`: the same object in the order in which documents are written.
- `Head.withField`: a base key is never a field.
-/

namespace DocTree

/-- What a node has besides its content. -/
structure Head where
  typeName : String
  fields : KeyMap Json := .empty
  data : Option (KeyMap Json) := none

instance : BEq Head :=
  ⟨fun x y => x.typeName == y.typeName && x.fields == y.fields && x.data == y.data⟩

/-- A node of a document. -/
inductive Node where
  | container (head : Head) (children : List Node)
  | leaf (head : Head) (value : Json)
  | empty (head : Head)

namespace Head

/-- The head with a field. A base key is ignored. -/
def withField (head : Head) (name : String) (value : Json) : Head :=
  if isBaseKey name then head else { head with fields := head.fields.insert name value }

/-- The head with an entry of `data`. -/
def withDataEntry (head : Head) (key : String) (value : Json) : Head :=
  { head with data := some ((head.data.getD .empty).insert key value) }

end Head

namespace Node

instance : Inhabited Node := ⟨.empty { typeName := "" }⟩

/-! ## Parts -/

/-- What a node has besides its content. -/
def head : Node → Head
  | .container head _ => head
  | .leaf head _ => head
  | .empty head => head

/-- The node with its head changed. -/
def mapHead (f : Head → Head) : Node → Node
  | .container head children => .container (f head) children
  | .leaf head value => .leaf (f head) value
  | .empty head => .empty (f head)

@[simp] theorem head_mapHead (f : Head → Head) (node : Node) :
    (node.mapHead f).head = f node.head := by cases node <;> rfl

/-- The type of a node. -/
def typeName (node : Node) : String := node.head.typeName

/-- A field of a node. -/
def field? (node : Node) (name : String) : Option Json := node.head.fields.get? name

/-- What sort of content a node carries. -/
def contentClass : Node → ContentClass
  | .container _ _ => .container
  | .leaf _ _ => .leaf
  | .empty _ => .empty

/-- The children of a node. -/
def children : Node → List Node
  | .container _ children => children
  | _ => []

/-- The value of a leaf. -/
def value? : Node → Option Json
  | .leaf _ value => some value
  | _ => none

mutual

/-- The number of nodes in a tree. -/
def size : Node → Nat
  | .container _ children => 1 + sizeAll children
  | .leaf _ _ => 1
  | .empty _ => 1

/-- The number of nodes in trees. -/
def sizeAll : List Node → Nat
  | [] => 0
  | node :: nodes => node.size + sizeAll nodes

end

/-! ## Equality -/

mutual

/-- Equality of trees, with that of JSON values inside. -/
def same : Node → Node → Bool
  | .container x xs, .container y ys => x == y && sameAll xs ys
  | .leaf x v, .leaf y w => x == y && v == w
  | .empty x, .empty y => x == y
  | _, _ => false

/-- Equality of lists of trees. -/
def sameAll : List Node → List Node → Bool
  | [], [] => true
  | x :: xs, y :: ys => x.same y && sameAll xs ys
  | _, _ => false

end

instance : BEq Node := ⟨same⟩

/-! ## JSON forms -/

/-- The entries of a head and its content, where base keys prevail over fields. -/
def entries (head : Head) (content : List (String × Json)) : KeyMap Json :=
  let fields := head.fields.entries.foldl (fun map entry => map.insert entry.1 entry.2)
    (KeyMap.empty.insert "type" (.string head.typeName))
  let withContent := content.foldl (fun map entry => map.insert entry.1 entry.2) fields
  match head.data with
  | none => withContent
  | some data => withContent.insert "data" (.ofMap data)

mutual

/-- The JSON object of a tree, as a map. -/
def toMap : Node → KeyMap Json
  | .container head children => entries head [("children", .array (toJsonAll children))]
  | .leaf head value => entries head [("value", value)]
  | .empty head => entries head []

/-- The JSON objects of trees. -/
def toJsonAll : List Node → List Json
  | [] => []
  | node :: nodes => .ofMap node.toMap :: toJsonAll nodes

end

/-- The JSON object of a tree. -/
def toJson (node : Node) : Json := .ofMap node.toMap

/-- The members of a head around its content, in the order in which they are written. -/
def members (head : Head) (content : List (String × Json)) : Json :=
  .object <|
    ("type", .string head.typeName) :: head.fields.entries ++ content ++
      (match head.data with
        | none => []
        | some data => [("data", .ofMap data)])

mutual

/-- The JSON object of a tree in the order in which it is written: type, fields, content, data. -/
def written : Node → Json
  | .container head children => members head [("children", .array (writtenAll children))]
  | .leaf head value => members head [("value", value)]
  | .empty head => members head []

/-- The written objects of trees. -/
def writtenAll : List Node → List Json
  | [] => []
  | node :: nodes => node.written :: writtenAll nodes

end

/-- The number of members that is announced before the object of a tree is written. -/
def announced (node : Node) : Nat :=
  1 + node.head.fields.size + (if node.contentClass = .empty then 0 else 1) +
    (if node.head.data.isSome then 1 else 0)

/-- The text of a tree. -/
def text (node : Node) : String := node.written.compact

/-- The text of a tree on lines of their own. -/
def indentedText (node : Node) : String := node.written.indented

end Node
end DocTree
