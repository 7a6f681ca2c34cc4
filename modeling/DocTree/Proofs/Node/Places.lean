import DocTree.Path
import DocTree.Proofs.Node.Object

/-!
# Places in a tree

A place in a tree is told by the indices of the children on the way from the root. Lists of nodes
in fields hold values and no nodes, so no place leads into them.

## Main definitions

* `Node.at?` — the node at a place.
* `Node.mapHeads` — the tree with all heads changed.
* `Path.ofPlaces` — the path that leads to a place.
* `Node.Neat`, `Node.Tidy` — nodes, and trees, that hold canonical values, and no base key as a
  field.

## Main statements

* `Node.forall_at?_iff` — what holds at all places holds here and at all places of the children.
* `Node.at?_mapHeads` — the nodes of a tree whose heads are changed.
* `Node.canonical_toJson_iff` — the object of a tree is canonical when all it holds is.
-/

namespace DocTree

/-- The path that leads to a place. -/
def Path.ofPlaces (places : List Nat) : Path := .ofSegments (places.map .index)

theorem Path.child_eq_ofPlaces_iff {path : Path} {place : Nat} {places : List Nat} :
    path.child place = ofPlaces places ↔
      ∃ parents, places = parents ++ [place] ∧ path = ofPlaces parents := by
  constructor
  · intro h
    have upward : Segment.index place :: path.upward = places.reverse.map .index := by
      simpa [child, push, ofPlaces, ofSegments, List.map_reverse] using congrArg Path.upward h
    obtain ⟨last, parents, reverse, same, rest⟩ := List.map_eq_cons_iff.1 upward.symm
    cases same
    refine ⟨parents.reverse, ?_, ?_⟩
    · rw [← List.reverse_cons, ← reverse, List.reverse_reverse]
    · rw [ofPlaces, ofSegments, ← List.map_reverse, List.reverse_reverse, rest]
  · rintro ⟨parents, rfl, rfl⟩
    simp [ofPlaces, ofSegments, child, push]

theorem Path.push_field_ne_ofPlaces (path : Path) (field : String) (places : List Nat) :
    path.push (.field field) ≠ ofPlaces places := by
  intro h
  have mem : Segment.field field ∈ (ofPlaces places).upward := h ▸ List.mem_cons_self
  simp [ofPlaces, ofSegments] at mem

namespace Node

/-- Induction on a tree, where all children are assumed. -/
theorem inductChildren {motive : Node → Prop}
    (step : ∀ node, (∀ child ∈ node.children, motive child) → motive node) (node : Node) :
    motive node := by
  induction node with
  | container head children ih => exact step _ ih
  | leaf head value => exact step _ (List.forall_mem_nil _)
  | empty head => exact step _ (List.forall_mem_nil _)

/-! ## Nodes at places -/

/-- The node at a place. -/
def at? (node : Node) : List Nat → Option Node
  | [] => some node
  | place :: places => node.children[place]?.bind fun child => child.at? places

@[simp] theorem at?_nil (node : Node) : node.at? [] = some node := rfl

theorem at?_cons_eq_some_iff {node found : Node} {place : Nat} {places : List Nat} :
    node.at? (place :: places) = some found ↔
      ∃ child, node.children[place]? = some child ∧ child.at? places = some found := by
  simp [at?, Option.bind_eq_some_iff]

/-- To go on from a place is to start there. -/
theorem at?_append (node : Node) (ps qs : List Nat) :
    node.at? (ps ++ qs) = (node.at? ps).bind fun found => found.at? qs := by
  induction ps generalizing node with
  | nil => rfl
  | cons place ps ih =>
    rw [List.cons_append, at?, at?]
    cases node.children[place]? with
    | none => rfl
    | some child => exact ih child

theorem at?_append_singleton_eq_some_iff {node found : Node} {places : List Nat} {place : Nat} :
    node.at? (places ++ [place]) = some found ↔
      ∃ parent, node.at? places = some parent ∧ parent.children[place]? = some found := by
  simp only [at?_append, Option.bind_eq_some_iff, at?_cons_eq_some_iff, at?_nil,
    Option.some.injEq, exists_eq_right]

/-- What holds at all places of a tree, by their depths, holds of its root, and at all places of
its children, one level deeper. -/
theorem forall_at?_iff {P : Nat → Node → Prop} {node : Node} :
    (∀ places found, node.at? places = some found → P places.length found) ↔
      P 0 node ∧ ∀ child ∈ node.children,
        ∀ places found, child.at? places = some found → P (places.length + 1) found := by
  constructor
  · refine fun h => ⟨h [] node rfl, fun child mem places found there => ?_⟩
    obtain ⟨place, here⟩ := List.mem_iff_getElem?.1 mem
    exact h (place :: places) found (at?_cons_eq_some_iff.2 ⟨child, here, there⟩)
  · rintro ⟨root, below⟩ places found there
    cases places with
    | nil => exact Option.some.inj there ▸ root
    | cons place places =>
      obtain ⟨child, here, there⟩ := at?_cons_eq_some_iff.1 there
      exact below child (List.mem_of_getElem? here) places found there

/-! ## Changed heads -/

mutual

/-- The tree with all heads changed. -/
def mapHeads (f : Head → Head) : Node → Node
  | .container head children => .container (f head) (mapHeadsAll f children)
  | .leaf head value => .leaf (f head) value
  | .empty head => .empty (f head)

/-- The trees with all heads changed. -/
def mapHeadsAll (f : Head → Head) : List Node → List Node
  | [] => []
  | node :: nodes => node.mapHeads f :: mapHeadsAll f nodes

end

variable (f : Head → Head) (node : Node)

@[simp] theorem mapHeadsAll_eq_map (nodes : List Node) :
    mapHeadsAll f nodes = nodes.map (mapHeads f) := by
  induction nodes with
  | nil => rfl
  | cons node nodes ih => simp [mapHeadsAll, ih]

@[simp] theorem head_mapHeads : (node.mapHeads f).head = f node.head := by
  cases node <;> rfl

@[simp] theorem children_mapHeads :
    (node.mapHeads f).children = node.children.map (mapHeads f) := by
  cases node <;> simp [mapHeads, children]

@[simp] theorem contentClass_mapHeads : (node.mapHeads f).contentClass = node.contentClass := by
  cases node <;> rfl

@[simp] theorem value?_mapHeads : (node.mapHeads f).value? = node.value? := by
  cases node <;> rfl

/-- The nodes of a tree whose heads are changed are its nodes with their heads changed. -/
theorem at?_mapHeads (places : List Nat) :
    (node.mapHeads f).at? places = (node.at? places).map (mapHeads f) := by
  induction places generalizing node with
  | nil => rfl
  | cons place places ih =>
    rw [at?, at?, children_mapHeads, List.getElem?_map]
    cases node.children[place]? with
    | none => rfl
    | some child => exact ih child

theorem mapHead_eq_of_head {node : Node} {f : Head → Head} {head : Head} (h : f node.head = head) :
    node.mapHead f = node.mapHead fun _ => head := by
  cases node <;> simp_all [mapHead]

@[simp] theorem mapHead_head : (node.mapHead fun _ => node.head) = node := by
  cases node <;> rfl

@[simp] theorem children_mapHead : (node.mapHead f).children = node.children := by
  cases node <;> rfl

@[simp] theorem contentClass_mapHead : (node.mapHead f).contentClass = node.contentClass := by
  cases node <;> rfl

@[simp] theorem value?_mapHead : (node.mapHead f).value? = node.value? := by
  cases node <;> rfl

/-! ## Canonical objects -/

/-- The object of a node is canonical when its head, its value and the objects of its children
are. -/
theorem canonical_toJson_iff_of_children (h : node.head.Unshadowed) :
    node.toJson.Canonical ↔
      (node.head.Canonical ∧ ∀ value, node.value? = some value → value.Canonical) ∧
        ∀ child ∈ node.children, child.toJson.Canonical := by
  rw [toJson, Json.canonical_ofMap_iff]
  constructor
  · intro canonical
    refine ⟨⟨⟨?_, ?_⟩, ?_⟩, ?_⟩
    · intro key value found
      exact canonical key value ((get?_toMap_of_not_base h (h.not_base found)).trans found)
    · intro data found
      exact canonical "data" _ ((get?_toMap_data h).trans (by rw [found]; rfl))
    · intro value found
      exact canonical "value" _ ((get?_toMap_value h).trans found)
    · intro child mem
      have container : node.contentClass = .container := by
        cases node <;> simp_all [children, contentClass]
      have array := canonical "children" _ ((get?_toMap_children h).trans (if_pos container))
      exact Json.canonical_array_iff.1 array _ (List.mem_map_of_mem mem)
  · rintro ⟨⟨⟨fields, data⟩, value⟩, children⟩ key member found
    cases base : isBaseKey key with
    | false => exact fields key member ((get?_toMap_of_not_base h base).symm.trans found)
    | true =>
      rcases isBaseKey_iff.1 base with rfl | rfl | rfl | rfl
      · rw [get?_toMap_type h] at found
        cases found
        trivial
      · rw [get?_toMap_children h] at found
        split at found
        · cases found
          apply Json.canonical_array_iff.2
          intro item mem
          obtain ⟨child, childMem, rfl⟩ := List.mem_map.1 mem
          exact children child childMem
        · cases found
      · exact value member ((get?_toMap_value h).symm.trans found)
      · rw [get?_toMap_data h] at found
        obtain ⟨map, whole, rfl⟩ := Option.map_eq_some_iff.1 found
        exact data map whole

/-- The object of a tree is canonical when all its heads and values are. -/
theorem canonical_toJson_iff
    (h : ∀ places found, node.at? places = some found → found.head.Unshadowed) :
    node.toJson.Canonical ↔ ∀ places found, node.at? places = some found →
      found.head.Canonical ∧ ∀ value, found.value? = some value → value.Canonical := by
  induction node using inductChildren with
  | step node ih =>
    obtain ⟨here, below⟩ := (forall_at?_iff (P := fun _ found => found.head.Unshadowed)).1 h
    rw [canonical_toJson_iff_of_children node here, forall_at?_iff
      (P := fun _ found => found.head.Canonical ∧ ∀ value, found.value? = some value →
        value.Canonical)]
    exact and_congr_right fun _ => forall₂_congr fun child mem => ih child mem (below child mem)

/-! ## Tidy trees -/

/-- The head and the value of a node are canonical, and no field of it stands under a base key. -/
structure Neat (node : Node) : Prop where
  unshadowed : node.head.Unshadowed
  canonical : node.head.Canonical
  value : ∀ value, node.value? = some value → value.Canonical

/-- All nodes of a tree are neat. -/
def Tidy (tree : Node) : Prop :=
  ∀ places found, tree.at? places = some found → found.Neat

theorem tidy_iff {tree : Node} : tree.Tidy ↔ tree.Neat ∧ ∀ child ∈ tree.children, child.Tidy :=
  forall_at?_iff (P := fun _ found => found.Neat)

/-- A tree is tidy when no field stands under a base key and its object is canonical. -/
theorem tidy_iff_canonical {tree : Node} :
    tree.Tidy ↔ (∀ places found, tree.at? places = some found → found.head.Unshadowed) ∧
      tree.toJson.Canonical := by
  constructor
  · intro tidy
    have unshadowed := fun places found there => (tidy places found there).unshadowed
    exact ⟨unshadowed, (canonical_toJson_iff tree unshadowed).2 fun places found there =>
      ⟨(tidy places found there).canonical, (tidy places found there).value⟩⟩
  · rintro ⟨unshadowed, canonical⟩ places found there
    obtain ⟨head, value⟩ := (canonical_toJson_iff tree unshadowed).1 canonical places found there
    exact ⟨unshadowed places found there, head, value⟩

/-- A tree with a changed head is tidy when the tree is, and when the head is canonical and
unshadowed. -/
theorem Tidy.mapHead {node : Node} (tidy : node.Tidy) {f : Head → Head}
    (unshadowed : (f node.head).Unshadowed) (canonical : (f node.head).Canonical) :
    (node.mapHead f).Tidy := by
  obtain ⟨neat, below⟩ := tidy_iff.1 tidy
  rw [← head_mapHead f node] at unshadowed canonical
  refine tidy_iff.2 ⟨⟨unshadowed, canonical, ?_⟩, ?_⟩
  · rw [value?_mapHead]
    exact neat.value
  · rw [children_mapHead]
    exact below

theorem Tidy.mapHeads {tree : Node} {f : Head → Head} (tidy : tree.Tidy)
    (heads : ∀ places found, tree.at? places = some found → found.Neat →
      (f found.head).Unshadowed ∧ (f found.head).Canonical) : (tree.mapHeads f).Tidy := by
  intro places found there
  rw [at?_mapHeads] at there
  obtain ⟨before, here, rfl⟩ := Option.map_eq_some_iff.1 there
  have neat := tidy places before here
  obtain ⟨unshadowed, canonical⟩ := heads places before here neat
  rw [← head_mapHeads f before] at unshadowed canonical
  exact ⟨unshadowed, canonical, fun value there =>
    neat.value value ((value?_mapHeads f before).symm.trans there)⟩

end Node
end DocTree
