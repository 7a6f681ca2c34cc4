import DocTree.Registry
import DocTree.Node

/-!
# Choosing nodes

## Main definitions

- `Select`: a test on nodes, for visits and searches; here by type, content or category.
-/

namespace DocTree

/-- A test on nodes. -/
abbrev Select := Node → Bool

namespace Select

/-- All nodes. -/
def all : Select := fun _ => true

/-- The nodes of a type. -/
def ofType (name : String) : Select := fun node => node.typeName = name

/-- The nodes with a sort of content. -/
def ofContent (content : ContentClass) : Select := fun node => node.contentClass = content

/-- The nodes whose registered type is of a category. -/
def ofCategory (registry : Registry) (category : Category) : Select :=
  fun node => registry.category? node.typeName = some category

end Select
end DocTree
