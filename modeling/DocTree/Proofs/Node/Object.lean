import DocTree.Node
import DocTree.Proofs.Json.Canonical

/-!
# The object of a node

What stands under each key of the object of a node. Fields may not stand under base keys, or the
content would replace them.

## Main definitions

* `Head.Unshadowed` — no field stands under a base key.
* `Head.Canonical` — fields and data hold canonical values.

## Main statements

* `Node.get?_toMap_type`, `Node.get?_toMap_children`, `Node.get?_toMap_value`,
  `Node.get?_toMap_data`, `Node.get?_toMap_of_not_base` — the object of a node, key by key.
-/

namespace DocTree

theorem isBaseKey_iff {key : String} :
    isBaseKey key = true ↔ key = "type" ∨ key = "children" ∨ key = "value" ∨ key = "data" := by
  simp [isBaseKey, baseKeys]

namespace Head

/-- No field stands under a base key. -/
def Unshadowed (head : Head) : Prop :=
  ∀ key, isBaseKey key = true → head.fields.get? key = none

theorem Unshadowed.not_base {head : Head} (h : head.Unshadowed) {key : String} {value : Json}
    (found : head.fields.get? key = some value) : isBaseKey key = false := by
  apply Bool.eq_false_iff.2
  intro base
  rw [h key base] at found
  cases found

/-- Fields and data hold canonical values. -/
structure Canonical (head : Head) : Prop where
  fields : ∀ key value, head.fields.get? key = some value → value.Canonical
  data : ∀ data, head.data = some data → (Json.ofMap data).Canonical

/-! ## Setters -/

section setters

variable {head : Head}

theorem Unshadowed.withField (h : head.Unshadowed) (name : String) (value : Json) :
    (head.withField name value).Unshadowed := by
  unfold Head.withField
  split
  · exact h
  · rename_i notBase
    intro key base
    have other : key ≠ name := by
      rintro rfl
      exact notBase base
    exact (KeyMap.get?_insert _ _ _ _).trans ((if_neg other).trans (h key base))

theorem Canonical.withField (h : head.Canonical) (name : String) {value : Json}
    (canonical : value.Canonical) : (head.withField name value).Canonical := by
  unfold Head.withField
  split
  · exact h
  · refine ⟨fun key found there => ?_, h.data⟩
    rw [KeyMap.get?_insert] at there
    split at there
    · exact Option.some.inj there ▸ canonical
    · exact h.fields key found there

theorem Canonical.withData (h : head.Canonical) {data : KeyMap Json}
    (canonical : (Json.ofMap data).Canonical) :
    ({ head with data := some data } : Head).Canonical :=
  ⟨h.fields, fun _ same => Option.some.inj same ▸ canonical⟩

theorem Canonical.withDataEntry (h : head.Canonical) (key : String) {value : Json}
    (canonical : value.Canonical) : (head.withDataEntry key value).Canonical := by
  refine h.withData (Json.canonical_ofMap_iff.2 fun other found there => ?_)
  rw [KeyMap.get?_insert] at there
  split at there
  · exact Option.some.inj there ▸ canonical
  · cases stored : head.data with
    | none => simp [stored] at there
    | some data =>
      rw [stored] at there
      exact Json.canonical_ofMap_iff.1 (h.data data stored) other found there

end setters

end Head

namespace Node

/-! ## Induction -/

/-- Induction on a tree, where all children of a container are assumed. -/
@[induction_eliminator] theorem induct {motive : Node → Prop}
    (container : ∀ head children, (∀ child ∈ children, motive child) →
      motive (.container head children))
    (leaf : ∀ head value, motive (.leaf head value)) (empty : ∀ head, motive (.empty head)) :
    ∀ node, motive node
  | .container head children => container head children fun child mem =>
      have := List.sizeOf_lt_of_mem mem
      induct container leaf empty child
  | .leaf head value => leaf head value
  | .empty head => empty head

/-! ## Parts -/

@[simp] theorem head_container (head : Head) (children : List Node) :
    (container head children).head = head := rfl

@[simp] theorem head_leaf (head : Head) (value : Json) : (leaf head value).head = head := rfl

@[simp] theorem head_empty (head : Head) : (empty head).head = head := rfl

@[simp] theorem toJsonAll_eq_map (nodes : List Node) : toJsonAll nodes = nodes.map toJson := by
  induction nodes with
  | nil => rfl
  | cons node nodes ih => simp [toJsonAll, toJson, ih]

@[simp] theorem map?_toJson (node : Node) : node.toJson.map? = some node.toMap :=
  Json.map?_ofMap node.toMap

/-! ## Keys -/

/-- The content of a node as members of its object. -/
def content : Node → List (String × Json)
  | .container _ children => [("children", .array (children.map toJson))]
  | .leaf _ value => [("value", value)]
  | .empty _ => []

theorem toMap_eq (node : Node) : node.toMap = entries node.head node.content := by
  cases node <;> simp [toMap, content]

theorem get?_entries (head : Head) (content : List (String × Json)) (key : String) :
    (entries head content).get? key =
      if key = "data" ∧ head.data.isSome then head.data.map .ofMap
      else (((KeyMap.empty.insert "type" (.string head.typeName)).insertAll
        head.fields.entries).insertAll content).get? key := by
  unfold entries
  cases head.data with
  | none => simp [KeyMap.insertAll]
  | some data => simp [KeyMap.insertAll, KeyMap.get?_insert]

theorem get?_insertAll_content (node : Node) (map : KeyMap Json) (key : String) :
    (map.insertAll node.content).get? key =
      if key = "children" ∧ node.contentClass = .container then
        some (.array (node.children.map toJson))
      else if key = "value" ∧ node.contentClass = .leaf then node.value?
      else map.get? key := by
  cases node <;>
    simp [content, KeyMap.insertAll, KeyMap.get?_insert, contentClass, children, value?]

theorem get?_typeAndFields {head : Head} (h : head.Unshadowed) (key : String) :
    ((KeyMap.empty.insert "type" (.string head.typeName)).insertAll head.fields.entries).get? key =
      if key = "type" then some (.string head.typeName) else head.fields.get? key := by
  rw [KeyMap.get?_insertAll, KeyMap.get?_insert]
  split
  · rename_i same
    simp [h key (isBaseKey_iff.2 (.inl same))]
  · simp

variable {node : Node} (h : node.head.Unshadowed)
include h

theorem get?_toMap_type : node.toMap.get? "type" = some (.string node.typeName) := by
  rw [toMap_eq, get?_entries, get?_insertAll_content, get?_typeAndFields h]
  simp [typeName]

theorem get?_toMap_children : node.toMap.get? "children" =
    if node.contentClass = .container then some (.array (node.children.map toJson)) else none := by
  rw [toMap_eq, get?_entries, get?_insertAll_content, get?_typeAndFields h]
  simp [h "children" rfl]

theorem get?_toMap_value : node.toMap.get? "value" = node.value? := by
  have unset := h "value" rfl
  rw [toMap_eq, get?_entries, get?_insertAll_content, get?_typeAndFields h]
  cases node <;> simp_all [contentClass, value?]

theorem get?_toMap_data : node.toMap.get? "data" = node.head.data.map .ofMap := by
  rw [toMap_eq, get?_entries, get?_insertAll_content, get?_typeAndFields h]
  cases hdata : node.head.data <;> simp [h "data" rfl]

theorem get?_toMap_of_not_base {key : String} (hkey : isBaseKey key = false) :
    node.toMap.get? key = node.field? key := by
  have other : ¬(key = "type" ∨ key = "children" ∨ key = "value" ∨ key = "data") := fun base =>
    Bool.false_ne_true (hkey.symm.trans (isBaseKey_iff.2 base))
  rw [toMap_eq, get?_entries, get?_insertAll_content, get?_typeAndFields h]
  simp_all [field?]

end Node
end DocTree
