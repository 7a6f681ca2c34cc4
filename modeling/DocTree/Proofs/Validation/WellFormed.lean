import DocTree.Proofs.Node.Places
import DocTree.Proofs.Registry.Reachable
import DocTree.Proofs.Validation.Sites

/-!
# Well-formed nodes

What it means for a node to be well formed at a depth, said of the tree alone: its own rules, and
those of the nodes below it, among its children and in its lists of nodes.

## Main definitions

* `Validator.Obeys` — the rules that a node keeps apart from what lies below it.
* `Validator.WellFormedAt` — the node and all nodes below it keep their rules.

## Main statements

* `Validator.exists_checked_at?` — what lies at a place of a tree that is checked is checked.
* `Validator.admits_toMap_iff` — a node obeys its type when its object keeps all rules.
* `Validator.nodeOf_toMap` — the node of an object is the node that the object was made from.
* `Validator.eq_of_toJson_eq` — trees with the same object are the same.
* `Validator.toMap_nodeOf` — the object of the node of an object is that object.
-/

namespace DocTree
namespace Validator

variable {validator : Validator} {schema : Schema} {object : KeyMap Json} {node : Node}

/-! ## Definitions -/

/-- The node keeps the rules of a type, apart from what lies below it. -/
structure Obeys (validator : Validator) (schema : Schema) (node : Node) : Prop where
  content : node.contentClass = schema.contentClass
  value : ∀ value, node.value? = some value → schema.kindOfValue.fits value = true
  fields : ∀ field value, node.field? field = some value →
    ∃ spec, schema.fields.get? field = some spec ∧ spec.kind.fits value = true
  required : ∀ field spec, schema.fields.get? field = some spec → spec.required = true →
    node.field? field = none → validator.coversLegacy schema spec node.head.data = true

/-- A container of a type accepts the node as a child. -/
def Accepts (validator : Validator) (parent : Schema) (child : Node) : Prop :=
  ∃ schema, validator.registry.get? child.typeName = some schema ∧
    parent.childClass.accepts schema.category = true

/-- The node and all nodes below it keep their rules, where it lies so deep. The elements of a list
of nodes are the objects of well-formed nodes. -/
def WellFormedAt (validator : Validator) (depth : Nat) (node : Node) : Prop :=
  ∃ _ : depth < validator.settings.maxDepth,
    ∃ schema, validator.registry.get? node.typeName = some schema ∧ validator.Obeys schema node ∧
      (∀ field spec items, schema.fields.get? field = some spec → spec.kind = .nodeList →
        node.field? field = some (.array items) →
          ∀ item ∈ items, ∃ element : Node, element.toJson = item ∧
            WellFormedAt validator (depth + 1) element) ∧
      ∀ child ∈ node.children,
        WellFormedAt validator (depth + 1) child ∧ validator.Accepts schema child
termination_by validator.settings.maxDepth - depth

/-! ## Nodes and their objects -/

/-- A node that obeys a sound type has no field under a base key. -/
theorem Obeys.unshadowed (h : validator.Obeys schema node) (flawless : schema.flaw? = none) :
    node.head.Unshadowed := by
  intro key base
  apply Option.eq_none_iff_forall_ne_some.2
  intro value found
  obtain ⟨spec, declared, -⟩ := h.fields key value found
  have notBase := Schema.declared_not_base flawless declared
  exact Bool.false_ne_true (notBase.symm.trans base)

theorem WellFormedAt.shallow {depth : Nat} (h : validator.WellFormedAt depth node) :
    depth < validator.settings.maxDepth := by
  rw [WellFormedAt] at h
  exact h.1

theorem WellFormedAt.registered {depth : Nat} (h : validator.WellFormedAt depth node) :
    ∃ schema, validator.registry.get? node.typeName = some schema := by
  rw [WellFormedAt] at h
  obtain ⟨-, schema, known, -⟩ := h
  exact ⟨schema, known⟩

/-- What holds of a well-formed node by its type. -/
theorem WellFormedAt.of_registered {depth : Nat} (h : validator.WellFormedAt depth node)
    (known : validator.registry.get? node.typeName = some schema) :
    validator.Obeys schema node ∧
      (∀ field spec items, schema.fields.get? field = some spec → spec.kind = .nodeList →
        node.field? field = some (.array items) →
          ∀ item ∈ items, ∃ element : Node, element.toJson = item ∧
            validator.WellFormedAt (depth + 1) element) ∧
      ∀ child ∈ node.children,
        validator.WellFormedAt (depth + 1) child ∧ validator.Accepts schema child := by
  rw [WellFormedAt] at h
  obtain ⟨-, own, registered, rules⟩ := h
  obtain rfl : own = schema := Option.some.inj (registered.symm.trans known)
  exact rules

theorem WellFormedAt.unshadowed {depth : Nat} (h : validator.WellFormedAt depth node)
    (sound : validator.registry.Sound) : node.head.Unshadowed := by
  obtain ⟨schema, known⟩ := h.registered
  exact (h.of_registered known).1.unshadowed (sound _ schema known).2.2

/-- The nodes of a well-formed tree are well formed where they lie. -/
theorem WellFormedAt.at? {depth : Nat} (h : validator.WellFormedAt depth node) {places : List Nat}
    {found : Node} (there : node.at? places = some found) :
    validator.WellFormedAt (depth + places.length) found := by
  induction places generalizing depth node with
  | nil => exact Option.some.inj there ▸ h
  | cons place places ih =>
    obtain ⟨child, here, there⟩ := Node.at?_cons_eq_some_iff.1 there
    obtain ⟨schema, known⟩ := h.registered
    obtain ⟨-, -, children⟩ := h.of_registered known
    have below := ih (children child (List.mem_of_getElem? here)).1 there
    rwa [Nat.add_right_comm] at below

/-- A well-formed tree with a canonical object is tidy. -/
theorem WellFormedAt.tidy {depth : Nat} (h : validator.WellFormedAt depth node)
    (sound : validator.registry.Sound) (canonical : node.toJson.Canonical) : node.Tidy :=
  Node.tidy_iff_canonical.2 ⟨fun _ _ there => (h.at? there).unshadowed sound, canonical⟩

theorem dataOf?_toMap (h : node.head.Unshadowed) : dataOf? node.toMap = node.head.data := by
  rw [dataOf?, Node.get?_toMap_data h]
  cases node.head.data <;> simp

theorem childItems_toMap (h : node.head.Unshadowed) :
    childItems node.toMap = node.children.map Node.toJson := by
  rw [childItems, Node.get?_toMap_children h]
  cases node <;> rfl

theorem schemaOf?_toMap (h : node.head.Unshadowed) :
    validator.schemaOf? node.toMap = validator.registry.get? node.typeName := by
  rw [schemaOf?, Node.get?_toMap_type h]
  rfl

theorem fits_toMap (h : node.head.Unshadowed) (contentClass : ContentClass) :
    contentClass.fits node.toMap = true ↔ node.contentClass = contentClass := by
  unfold ContentClass.fits KeyMap.contains
  rw [Node.get?_toMap_children h, Node.get?_toMap_value h]
  cases node <;> cases contentClass <;>
    simp [Node.contentClass, Node.value?, Json.items?]

/-- A node obeys its type when its object keeps all rules. -/
theorem admits_toMap_iff (h : node.head.Unshadowed) (flawless : schema.flaw? = none) :
    validator.Admits schema node.toMap ↔ validator.Obeys schema node := by
  have declaredField : ∀ {field spec}, schema.fields.get? field = some spec →
      node.toMap.get? field = node.field? field := fun declared =>
    Node.get?_toMap_of_not_base h (Schema.declared_not_base flawless declared)
  constructor
  · intro admits
    have content := (fits_toMap h _).1 admits.content
    refine ⟨content, ?_, ?_, ?_⟩
    · intro value found
      have leaf : node.contentClass = .leaf := by
        cases node <;> simp_all [Node.value?, Node.contentClass]
      exact admits.value (content.symm.trans leaf) value ((Node.get?_toMap_value h).trans found)
    · intro field value found
      have notBase : isBaseKey field = false := h.not_base found
      have present := (Node.get?_toMap_of_not_base h notBase).trans found
      obtain ⟨spec, declared⟩ := admits.declared field value present notBase
      exact ⟨spec, declared, admits.fields field spec value declared present⟩
    · intro field spec declared required absent
      rw [← dataOf?_toMap h]
      exact admits.required field spec declared required ((declaredField declared).trans absent)
  · intro obeys
    refine ⟨(fits_toMap h _).2 obeys.content, ?_, ?_, ?_, ?_, ?_⟩
    · intro _ value found
      exact obeys.value value ((Node.get?_toMap_value h).symm.trans found)
    · intro field spec value declared found
      obtain ⟨found, declared', fits⟩ :=
        obeys.fields field value ((declaredField declared).symm.trans found)
      exact Option.some.inj (declared.symm.trans declared') ▸ fits
    · intro field spec declared required absent
      rw [dataOf?_toMap h]
      exact obeys.required field spec declared required ((declaredField declared).symm.trans absent)
    · intro key value found notBase
      obtain ⟨spec, declared, -⟩ :=
        obeys.fields key value ((Node.get?_toMap_of_not_base h notBase).symm.trans found)
      exact ⟨spec, declared⟩
    · intro value found
      rw [Node.get?_toMap_data h] at found
      obtain ⟨data, -, rfl⟩ := Option.map_eq_some_iff.1 found
      exact ⟨data, Json.map?_ofMap data⟩

/-! ## Places in trees that are checked -/

/-- The children of a node whose object is checked are checked. -/
theorem Opens.below_child {site : Site} {schema : Schema} {node child : Node} {place : Nat}
    (opens : validator.Opens site schema node.toMap) (unshadowed : node.head.Unshadowed)
    (here : node.children[place]? = some child) :
    validator.Below site (site.child schema place child.toJson) := by
  have item : (childItems node.toMap)[place]? = some child.toJson := by
    rw [childItems_toMap unshadowed, List.getElem?_map, here]
    rfl
  obtain ⟨items, array, item⟩ := getElem?_childItems_iff.1 item
  exact .child opens array item

/-- What lies at a place of a tree that is checked is checked. -/
theorem exists_checked_at? (sound : validator.registry.Sound) {site : Site} {node found : Node}
    (h : validator.WellFormedAt site.depth node) (value : site.value = node.toJson)
    {places : List Nat} (there : node.at? places = some found) :
    ∃ below, validator.Checked site below ∧ below.value = found.toJson ∧
      below.depth = site.depth + places.length := by
  induction places generalizing site node with
  | nil => exact ⟨site, .start, Option.some.inj there ▸ value, rfl⟩
  | cons place places ih =>
    obtain ⟨child, here, there⟩ := Node.at?_cons_eq_some_iff.1 there
    have unshadowed := h.unshadowed sound
    obtain ⟨schema, known⟩ := h.registered
    obtain ⟨-, -, children⟩ := h.of_registered known
    have opens : validator.Opens site schema node.toMap :=
      ⟨h.shallow, by rw [value, Node.map?_toJson], (schemaOf?_toMap unshadowed).trans known⟩
    have fine : validator.WellFormedAt (site.child schema place child.toJson).depth child :=
      (children child (List.mem_of_getElem? here)).1
    obtain ⟨below, checked, same, depth⟩ := ih fine rfl there
    refine ⟨below, (Checked.start.step (opens.below_child unshadowed here)).trans checked, same, ?_⟩
    rw [depth, List.length_cons, Nat.add_comm places.length, ← Nat.add_assoc]
    rfl

/-! ## The node of an object -/

/-- The head of the node of an object. -/
def headOf (schema : Schema) (object : KeyMap Json) : Head :=
  { typeName := schema.name
    fields := object.filter fun key _ => !isBaseKey key
    data := dataOf? object }

theorem nodeOf_eq (children : List Node) :
    nodeOf schema object children =
      match schema.contentClass with
      | .leaf => (object.get? "value").map (.leaf (headOf schema object))
      | .container => some (.container (headOf schema object) children)
      | .empty => some (.empty (headOf schema object)) := rfl

theorem exists_nodeOf (content : schema.contentClass.fits object = true) (children : List Node) :
    ∃ node, nodeOf schema object children = some node := by
  rw [nodeOf_eq]
  cases contentClass : schema.contentClass with
  | leaf =>
    simp only [contentClass, ContentClass.fits, Bool.and_eq_true, KeyMap.contains_iff] at content
    obtain ⟨-, value, found⟩ := content
    exact ⟨_, by rw [found]; rfl⟩
  | container => exact ⟨_, rfl⟩
  | empty => exact ⟨_, rfl⟩

theorem unshadowed_headOf : (headOf schema object).Unshadowed := fun key base => by
  simp [headOf, KeyMap.get?_filter, base]

theorem headOf_toMap (h : node.head.Unshadowed) (named : schema.name = node.typeName) :
    headOf schema node.toMap = node.head := by
  have fields : node.toMap.filter (fun key _ => !isBaseKey key) = node.head.fields := by
    apply KeyMap.ext_get?
    intro key
    rw [KeyMap.get?_filter]
    cases base : isBaseKey key with
    | true => simp [h key base]
    | false => simp [Node.get?_toMap_of_not_base h base, Node.field?]
  rw [headOf, fields, dataOf?_toMap h, named]
  rfl

/-- The node of an object is the node that the object was made from. -/
theorem nodeOf_toMap (h : node.head.Unshadowed) (named : schema.name = node.typeName)
    (content : node.contentClass = schema.contentClass) :
    nodeOf schema node.toMap node.children = some node := by
  rw [nodeOf_eq, headOf_toMap h named, Node.get?_toMap_value h, ← content]
  cases node <;> rfl

theorem eq_of_map_eq {α β : Type} {f : α → β} {xs ys : List α} (same : xs.map f = ys.map f)
    (inj : ∀ x ∈ xs, ∀ y ∈ ys, f x = f y → x = y) : xs = ys := by
  apply List.ext_getElem?
  intro place
  have values := congrArg (·[place]?) same
  simp only [List.getElem?_map] at values
  cases first : xs[place]? <;> cases second : ys[place]? <;> simp_all
  exact inj _ (List.mem_of_getElem? first) _ (List.mem_of_getElem? second) values

/-- A tree is told by its object. -/
theorem eq_of_toJson_eq {other : Node}
    (h : ∀ places found, node.at? places = some found → found.head.Unshadowed)
    (h' : ∀ places found, other.at? places = some found → found.head.Unshadowed)
    (same : node.toJson = other.toJson) : node = other := by
  induction node using Node.inductChildren generalizing other with
  | step node ih =>
    obtain ⟨here, below⟩ := (Node.forall_at?_iff (P := fun _ found => found.head.Unshadowed)).1 h
    obtain ⟨here', below'⟩ := (Node.forall_at?_iff (P := fun _ found => found.head.Unshadowed)).1 h'
    have maps : node.toMap = other.toMap := by
      simpa using congrArg Json.map? same
    have typeName : node.typeName = other.typeName := by
      have types := Node.get?_toMap_type here
      rw [maps, Node.get?_toMap_type here'] at types
      simpa using types.symm
    have content : other.contentClass = node.contentClass := by
      have fits := (fits_toMap here node.contentClass).2 rfl
      rw [maps] at fits
      exact (fits_toMap here' _).1 fits
    have children : node.children = other.children := by
      have items := childItems_toMap here
      rw [maps, childItems_toMap here'] at items
      exact eq_of_map_eq items.symm fun child mem child' mem' same =>
        ih child mem (below child mem) (below' child' mem') same
    -- Both are the node of their common object, whatever the schema says of fields.
    let schema : Schema :=
      { name := node.typeName, category := .block, contentClass := node.contentClass }
    have first : nodeOf schema node.toMap node.children = some node := nodeOf_toMap here rfl rfl
    have second : nodeOf schema other.toMap other.children = some other :=
      nodeOf_toMap here' typeName content
    rw [maps, children, second] at first
    exact (Option.some.inj first).symm

/-- A node over the head of an object has that object, when it has its content too. -/
theorem toMap_eq_of_headOf (admits : validator.Admits schema object)
    (canonical : (Json.ofMap object).Canonical)
    (named : object.get? "type" = some (.string schema.name))
    (head : node.head = headOf schema object)
    (children : object.get? "children" =
      if node.contentClass = .container then some (.array (node.children.map Node.toJson))
      else none)
    (value : object.get? "value" = node.value?) : node.toMap = object := by
  have unshadowed : node.head.Unshadowed := head ▸ unshadowed_headOf
  have data : (headOf schema object).data.map .ofMap = object.get? "data" := by
    cases found : object.get? "data" with
    | none => simp [headOf, dataOf?, found]
    | some value =>
      obtain ⟨data, read⟩ := admits.data value found
      have whole := (Json.canonical_ofMap_iff.1 canonical "data" value found).eq_ofMap read
      simp [headOf, dataOf?, found, whole]
  apply KeyMap.ext_get?
  intro key
  cases base : isBaseKey key with
  | true =>
    rcases isBaseKey_iff.1 base with rfl | rfl | rfl | rfl
    · rw [Node.get?_toMap_type unshadowed, named, Node.typeName, head]
      rfl
    · rw [Node.get?_toMap_children unshadowed, children]
    · rw [Node.get?_toMap_value unshadowed, value]
    · rw [Node.get?_toMap_data unshadowed, head, data]
  | false =>
    rw [Node.get?_toMap_of_not_base unshadowed base, Node.field?, head]
    simp [headOf, KeyMap.get?_filter, base]

/-- The object of the node of an object is that object, when it keeps all rules and the children
are those of the object. -/
theorem toMap_nodeOf {children : List Node} (admits : validator.Admits schema object)
    (canonical : (Json.ofMap object).Canonical)
    (named : object.get? "type" = some (.string schema.name))
    (items : children.map Node.toJson = childItems object) :
    ∃ node, nodeOf schema object children = some node ∧ node.toMap = object ∧
      node.typeName = schema.name ∧ node.head.Unshadowed ∧
      ∀ child ∈ node.children, child ∈ children := by
  have content := admits.content
  rw [nodeOf_eq]
  cases contentClass : schema.contentClass with
  | leaf =>
    simp only [contentClass, ContentClass.fits, Bool.and_eq_true, Bool.not_eq_true',
      KeyMap.contains_eq_false_iff, KeyMap.contains_iff] at content
    obtain ⟨noChildren, value, found⟩ := content
    refine ⟨.leaf (headOf schema object) value, by rw [found]; rfl, ?_, rfl, unshadowed_headOf,
      List.forall_mem_nil _⟩
    exact toMap_eq_of_headOf admits canonical named rfl noChildren found
  | container =>
    simp only [contentClass, ContentClass.fits, Bool.and_eq_true, Bool.not_eq_true',
      KeyMap.contains_eq_false_iff, Option.isSome_iff_exists, Option.bind_eq_some_iff,
      items?_eq_some_iff] at content
    obtain ⟨⟨list, value, found, rfl⟩, noValue⟩ := content
    have whole : children.map Node.toJson = list := by
      simpa [childItems, found, Json.items?] using items
    refine ⟨.container (headOf schema object) children, rfl, ?_, rfl, unshadowed_headOf,
      fun child mem => mem⟩
    exact toMap_eq_of_headOf admits canonical named rfl (whole ▸ found) noValue
  | empty =>
    simp only [contentClass, ContentClass.fits, Bool.and_eq_true, Bool.not_eq_true',
      KeyMap.contains_eq_false_iff] at content
    obtain ⟨noChildren, noValue⟩ := content
    refine ⟨.empty (headOf schema object), rfl, ?_, rfl, unshadowed_headOf, List.forall_mem_nil _⟩
    exact toMap_eq_of_headOf admits canonical named rfl noChildren noValue

end Validator
end DocTree
