import DocTree.Proofs.Json.Collected
import DocTree.Proofs.Node.Places

/-!
# The written object of a node

A node is written member by member: its type, its fields, its content, its data. When no field
stands under a base key, each key is written once, as many members are written as were announced,
and what a reader collects from them is the object of the node.

## Main definitions

* `Node.writtenMembers` — the members of the written object of a node.

## Main statements

* `Node.collected_written` — the written object of a tree is collected as its object.
* `Node.Tidy.keysOnce` — the written object of a tidy tree has each key once.
* `Node.Neat.keys_nodup`, `Node.length_writtenMembers` — keys and number of the written members.
-/

namespace DocTree
namespace Node

/-! ## Members -/

/-- The content of a node as it is written. -/
def writtenContent : Node → List (String × Json)
  | .container _ children => [("children", .array (children.map written))]
  | .leaf _ value => [("value", value)]
  | .empty _ => []

/-- The data of a node as it is written. -/
def writtenData (data : Option (KeyMap Json)) : List (String × Json) :=
  match data with
  | none => []
  | some data => [("data", .ofMap data)]

/-- The members of the written object of a node. -/
def writtenMembers (node : Node) : List (String × Json) :=
  ("type", .string node.typeName) :: node.head.fields.entries ++ node.writtenContent ++
    writtenData node.head.data

theorem writtenAll_eq_map (nodes : List Node) : writtenAll nodes = nodes.map written := by
  induction nodes with
  | nil => rfl
  | cons node nodes ih => rw [writtenAll, ih, List.map_cons]

theorem written_eq (node : Node) : node.written = .object node.writtenMembers := by
  cases node with
  | container head children =>
    rw [written, writtenAll_eq_map]
    rfl
  | leaf head value => rfl
  | empty head => rfl

/-- As many members are written as were announced. -/
theorem length_writtenMembers (node : Node) : node.writtenMembers.length = node.announced := by
  have content : node.writtenContent.length = if node.contentClass = .empty then 0 else 1 := by
    cases node <;> rfl
  have data : (writtenData node.head.data).length = if node.head.data.isSome then 1 else 0 := by
    cases node.head.data <;> rfl
  simp only [writtenMembers, announced, List.length_append, List.length_cons, content, data,
    KeyMap.size]
  omega

/-- Apart from the fields, the members stand under base keys, and no two under the same. -/
theorem keys_frame (node : Node) (data : Option (KeyMap Json)) :
    let frame := ("type", Json.string node.typeName) :: (node.writtenContent ++ writtenData data)
    (frame.map (·.1)).Nodup ∧ ∀ key ∈ frame.map (·.1), isBaseKey key = true := by
  cases node <;> cases data <;> simp [writtenContent, writtenData, isBaseKey, baseKeys]

/-- The keys of a neat node are written once each. -/
theorem Neat.keys_nodup {node : Node} (neat : node.Neat) :
    (node.writtenMembers.map (·.1)).Nodup := by
  obtain ⟨frame, base⟩ := keys_frame node node.head.data
  have fields : (node.head.fields.entries.map (·.1)).Nodup := node.head.fields.keys_nodup
  have apart : ∀ key ∈ node.head.fields.entries.map (·.1), ∀ other ∈
      (("type", Json.string node.typeName) ::
        (node.writtenContent ++ writtenData node.head.data)).map (·.1), key ≠ other := by
    rintro key mem _ other rfl
    obtain ⟨value, found⟩ := KeyMap.mem_keys_iff.1 mem
    have absent := neat.unshadowed key (base key other)
    rw [found] at absent
    cases absent
  have fieldsFirst : (node.writtenMembers.map (·.1)).Perm
      (node.head.fields.entries.map (·.1) ++ (("type", Json.string node.typeName) ::
        (node.writtenContent ++ writtenData node.head.data)).map (·.1)) := by
    rw [← List.map_append]
    refine List.Perm.map _ ?_
    rw [writtenMembers, List.append_assoc, List.cons_append]
    exact List.perm_middle.symm
  exact fieldsFirst.nodup_iff.2 (List.nodup_append.2 ⟨fields, frame, apart⟩)

/-- The written object of a tidy tree has each key once, in all objects in it. -/
theorem Tidy.keysOnce {tree : Node} (tidy : tree.Tidy) : tree.written.KeysOnce := by
  induction tree using inductChildren with
  | step tree ih =>
    obtain ⟨neat, below⟩ := tidy_iff.1 tidy
    rw [written_eq, Json.KeysOnce]
    refine ⟨neat.keys_nodup, Json.keysOnceMembers_iff.2 ?_⟩
    have content : ∀ entry ∈ tree.writtenContent, entry.2.KeysOnce := by
      cases tree with
      | container head children =>
        refine List.forall_mem_singleton.2 (Json.keysOnceItems_iff.2 ?_)
        intro item mem
        obtain ⟨child, childMem, rfl⟩ := List.mem_map.1 mem
        exact ih child childMem (below child childMem)
      | leaf head value => exact List.forall_mem_singleton.2 (neat.value value rfl).keysOnce
      | empty head => exact List.forall_mem_nil _
    have data : ∀ entry ∈ writtenData tree.head.data, entry.2.KeysOnce := by
      cases stored : tree.head.data with
      | none => exact List.forall_mem_nil _
      | some map => exact List.forall_mem_singleton.2 (neat.canonical.data map stored).keysOnce
    have fields : ∀ entry ∈ tree.head.fields.entries, entry.2.KeysOnce := fun entry mem =>
      (neat.canonical.fields entry.1 entry.2 (KeyMap.mem_entries_iff.1 mem)).keysOnce
    exact List.forall_mem_append.2 ⟨List.forall_mem_append.2
      ⟨List.forall_mem_cons.2 ⟨trivial, fields⟩, content⟩, data⟩

/-! ## Collecting -/

/-- The object of a node holds the members that are written, entered in that order. -/
theorem toMap_eq_insertAll (node : Node) :
    node.toMap = KeyMap.empty.insertAll
      (("type", .string node.typeName) :: node.head.fields.entries ++ node.content ++
        writtenData node.head.data) := by
  rw [toMap_eq, entries]
  cases node.head.data <;>
    simp [KeyMap.insertAll, writtenData, List.foldl_append, typeName]

/-- The content of a tidy node is collected when that of its children is. -/
theorem collected_writtenContent {node : Node} (neat : node.Neat)
    (below : ∀ child ∈ node.children, child.written.collected = child.toJson) :
    Json.collectedMembers node.writtenContent = node.content := by
  cases node with
  | container head children =>
    have items : (children.map written).map Json.collected = children.map toJson := by
      rw [List.map_map]
      exact List.map_congr_left below
    rw [writtenContent, content, Json.collectedMembers, Json.collected,
      Json.collectedItems_eq_map, items]
    rfl
  | leaf head value =>
    rw [writtenContent, content, Json.collectedMembers, (neat.value value rfl).collected_eq]
    rfl
  | empty head => rfl

/-- The written object of a tidy tree is collected as its object. -/
theorem Tidy.collected_written {tree : Node} (tidy : tree.Tidy) :
    tree.written.collected = tree.toJson := by
  induction tree using inductChildren with
  | step tree ih =>
    obtain ⟨neat, below⟩ := tidy_iff.1 tidy
    have content := collected_writtenContent neat fun child mem => ih child mem (below child mem)
    have fields : Json.collectedMembers tree.head.fields.entries = tree.head.fields.entries :=
      Json.collectedMembers_of_canonical <| Json.canonicalMembers_iff.2 fun entry mem =>
        neat.canonical.fields entry.1 entry.2 (KeyMap.mem_entries_iff.1 mem)
    have data : Json.collectedMembers (writtenData tree.head.data) =
        writtenData tree.head.data := by
      cases stored : tree.head.data with
      | none => rfl
      | some map =>
        rw [writtenData, Json.collectedMembers, (neat.canonical.data map stored).collected_eq]
        rfl
    have all : Json.collectedMembers tree.writtenMembers =
        ("type", .string tree.typeName) :: tree.head.fields.entries ++ tree.content ++
          writtenData tree.head.data := by
      simp only [Json.collectedMembers_eq_map] at fields content data ⊢
      rw [writtenMembers, List.map_append, List.map_append, List.map_cons, fields, content, data]
      rfl
    rw [written_eq, Json.collected, all, KeyMap.ofList_eq_insertAll, ← toMap_eq_insertAll]
    rfl

end Node
end DocTree
