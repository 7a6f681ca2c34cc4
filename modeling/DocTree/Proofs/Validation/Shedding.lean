import DocTree.Proofs.Node.Heads
import DocTree.Proofs.Validation.Registration

/-!
# Documents that lose fields

When nodes of an accepted document lose some of their fields, whatever becomes of their `data`, the
document still has the form that it has to have, and lists of nodes that are left are as they were.
So the one thing that may be wrong with it is that a node among its children lacks a required field.

## Main definitions

* `Head.Sheds`, `Node.Sheds` — heads and trees before and after the loss of fields.
* `Validator.Holds` — what is checked in a document that has lost fields.

## Main statements

* `Validator.Obeys.fits_shed` — a node that has lost fields fits its type.
* `Validator.holds_of_checked` — what is checked is a node at its place or an item as it was.
* `Validator.lacks_of_mem_violations_shed` — what a document that has lost fields is charged with.
-/

namespace DocTree

/-- The second head is the first one without some of its fields, over any `data`. -/
structure Head.Sheds (head next : Head) : Prop where
  typeName : next.typeName = head.typeName
  fields : ∀ field value, next.fields.get? field = some value →
    head.fields.get? field = some value

/-- A change takes fields from the nodes of a tree. -/
def Node.Sheds (tree : Node) (change : Head → Head) : Prop :=
  ∀ places node, tree.at? places = some node → node.head.Sheds (change node.head)

theorem Head.Sheds.unshadowed {head next : Head} (h : head.Sheds next)
    (unshadowed : head.Unshadowed) : next.Unshadowed := by
  intro key base
  apply Option.eq_none_iff_forall_ne_some.2
  intro value found
  cases (unshadowed key base).symm.trans (h.fields key value found)

theorem Node.Sheds.head {tree : Node} {change : Head → Head} (h : tree.Sheds change) :
    tree.head.Sheds (tree.mapHeads change).head :=
  Node.head_mapHeads change tree ▸ h [] tree rfl

theorem Node.Sheds.at? {tree node : Node} {change : Head → Head} (h : tree.Sheds change)
    {places : List Nat} (there : tree.at? places = some node) : node.Sheds change :=
  fun below found here => h (places ++ below) found (by rw [Node.at?_append, there]; exact here)

theorem Node.sheds_id (tree : Node) : tree.Sheds id := fun _ _ _ => ⟨rfl, fun _ _ found => found⟩

namespace Validator

variable {validator : Validator} {schema : Schema} {object : KeyMap Json} {tree node : Node}
  {change : Head → Head} {site : Site}

/-! ## One node -/

/-- A node that has lost fields fits its type, if it obeyed it before. -/
theorem Obeys.fits_shed (h : validator.Obeys schema node) (flawless : schema.flaw? = none)
    (sheds : node.Sheds change) : schema.Fits (node.mapHeads change).toMap := by
  have unshadowed := h.unshadowed flawless
  have unshadowed' := sheds.head.unshadowed unshadowed
  have admits := (admits_toMap_iff unshadowed flawless).2 h
  have before : ∀ field value, isBaseKey field = false →
      (node.mapHeads change).toMap.get? field = some value →
        node.toMap.get? field = some value := by
    intro field value notBase found
    rw [Node.get?_toMap_of_not_base unshadowed' notBase] at found
    exact (Node.get?_toMap_of_not_base unshadowed notBase).trans
      (sheds.head.fields field value found)
  refine ⟨?_, ?_, ?_, ?_, ?_⟩
  · rw [fits_toMap unshadowed', Node.contentClass_mapHeads]
    exact h.content
  · intro leaf value found
    rw [Node.get?_toMap_value unshadowed', Node.value?_mapHeads] at found
    exact h.value value found
  · intro field spec value declared found
    have notBase := Schema.declared_not_base flawless declared
    exact admits.fields field spec value declared (before field value notBase found)
  · exact fun key value found notBase =>
      admits.declared key value (before key value notBase found) notBase
  · intro value found
    rw [Node.get?_toMap_data unshadowed'] at found
    obtain ⟨data, -, rfl⟩ := Option.map_eq_some_iff.1 found
    exact ⟨data, Json.map?_ofMap data⟩

/-- What is opened where a well-formed node has lost fields is the object of what is left, of the
same type. -/
theorem Opens.of_shed (sound : validator.registry.Sound)
    (wellFormed : validator.WellFormedAt site.depth node) (sheds : node.Sheds change)
    (value : site.value = (node.mapHeads change).toJson)
    (opens : validator.Opens site schema object) :
    object = (node.mapHeads change).toMap ∧
      validator.registry.get? node.typeName = some schema := by
  have read := opens.read
  rw [value, Node.map?_toJson] at read
  obtain rfl := Option.some.inj read
  refine ⟨rfl, ?_⟩
  have known := opens.known
  rwa [schemaOf?_toMap (sheds.head.unshadowed (wellFormed.unshadowed sound)),
    Node.typeName, sheds.head.typeName] at known

/-! ## What is checked -/

/-- What is to be checked at a site is accepted by its container. It is either what is left of the
well-formed node at a place of the tree, or a well-formed node as it was. -/
inductive Holds (validator : Validator) (tree : Node) (change : Head → Head) (site : Site) : Prop
  | place {places : List Nat} {node : Node} : tree.at? places = some node →
      site.path = .ofPlaces places → validator.WellFormedAt site.depth node →
      site.value = (node.mapHeads change).toJson → Holds validator tree change site
  | item {node : Node} : validator.WellFormedAt site.depth node → site.value = node.toJson →
      Holds validator tree change site

/-- At each such site there is what is left of a well-formed node. -/
theorem Holds.exists_node (h : validator.Holds tree change site) (sheds : tree.Sheds change) :
    ∃ node change, validator.WellFormedAt site.depth node ∧ node.Sheds change ∧
      site.value = (node.mapHeads change).toJson := by
  cases h with
  | @place places node there path wellFormed value =>
    exact ⟨node, change, wellFormed, sheds.at? there, value⟩
  | @item node wellFormed value =>
    exact ⟨node, id, wellFormed, node.sheds_id, by rwa [Node.mapHeads_id]⟩

section below

variable (sound : validator.registry.Sound) (wellFormed : validator.WellFormedAt site.depth node)
  (sheds : node.Sheds change) (value : site.value = (node.mapHeads change).toJson)
  (opens : validator.Opens site schema object) {items : List Json} {place : Nat} {item : Json}

include sound wellFormed sheds value opens

/-- The children are what is left of the children, and their container accepts them still. -/
theorem Opens.child_of_shed (array : object.get? "children" = some (.array items))
    (found : items[place]? = some item) :
    ∃ child, node.children[place]? = some child ∧ validator.WellFormedAt (site.depth + 1) child ∧
      item = (child.mapHeads change).toJson ∧
      validator.refusals (site.child schema place item).parent item = [] := by
  obtain ⟨rfl, known⟩ := opens.of_shed sound wellFormed sheds value
  have unshadowed := sheds.head.unshadowed (wellFormed.unshadowed sound)
  have there := getElem?_childItems_iff.2 ⟨items, array, found⟩
  rw [childItems_toMap unshadowed, Node.children_mapHeads, List.getElem?_map,
    List.getElem?_map, Option.map_map] at there
  obtain ⟨child, here, rfl⟩ := Option.map_eq_some_iff.1 there
  obtain ⟨-, -, children⟩ := wellFormed.of_registered known
  obtain ⟨below, kind, knownChild, accepts⟩ := children child (List.mem_of_getElem? here)
  have shed : child.Sheds change :=
    sheds.at? (Node.at?_cons_eq_some_iff.2 ⟨child, here, child.at?_nil⟩)
  have sameType : (child.mapHeads change).typeName = child.typeName := shed.head.typeName
  refine ⟨child, here, below, rfl, ?_⟩
  unfold Site.child
  split
  · rw [← sameType] at knownChild
    have unshadowed' := shed.head.unshadowed (below.unshadowed sound)
    exact (refusals_toJson_iff unshadowed' knownChild).2 ⟨kind, knownChild, accepts⟩
  · exact refusals_none _

/-- The elements of a list of nodes that is left are well-formed nodes as they were. -/
theorem Opens.element_of_shed {field : String} {spec : FieldSpec}
    (declared : schema.fields.get? field = some spec) (kind : spec.kind = .nodeList)
    (array : object.get? field = some (.array items)) (found : items[place]? = some item) :
    ∃ element, validator.WellFormedAt (site.depth + 1) element ∧ item = element.toJson := by
  obtain ⟨rfl, known⟩ := opens.of_shed sound wellFormed sheds value
  have unshadowed := sheds.head.unshadowed (wellFormed.unshadowed sound)
  have notBase := Schema.declared_not_base (sound _ schema known).2.2 declared
  rw [Node.get?_toMap_of_not_base unshadowed notBase] at array
  have before := sheds.head.fields field _ array
  obtain ⟨-, lists, -⟩ := wellFormed.of_registered known
  obtain ⟨element, same, below⟩ :=
    lists field spec items declared kind before item (List.mem_of_getElem? found)
  exact ⟨element, below, same.symm⟩

end below

/-- What is checked in a document that has lost fields is what is left of the nodes at their places,
and the elements of lists of nodes as they were. -/
theorem holds_of_checked (sound : validator.registry.Sound)
    (wellFormed : validator.WellFormedAt 0 tree) (sheds : tree.Sheds change)
    (checked : validator.Checked (Site.root (tree.mapHeads change).toJson) site) :
    validator.refusals site.parent site.value = [] ∧ validator.Holds tree change site := by
  induction checked with
  | start => exact ⟨refusals_none _, @Holds.place _ _ _ _ [] tree rfl rfl wellFormed rfl⟩
  | @step site next _ below ih =>
    obtain ⟨-, holds⟩ := ih
    cases below with
    | child opens array found =>
      cases holds with
      | @place places node there path here value =>
        obtain ⟨child, inside, lower, rfl, accepted⟩ :=
          opens.child_of_shed sound here (sheds.at? there) value array found
        exact ⟨accepted, .place (Node.at?_append_singleton_eq_some_iff.2 ⟨node, there, inside⟩)
          (Path.child_eq_ofPlaces_iff.2 ⟨places, rfl, path⟩) lower rfl⟩
      | @item node here value =>
        rw [← Node.mapHeads_id node] at value
        obtain ⟨child, -, lower, rfl, accepted⟩ :=
          opens.child_of_shed sound here node.sheds_id value array found
        exact ⟨accepted, .item lower (by rw [Node.mapHeads_id]; rfl)⟩
    | element opens declared kind array found =>
      obtain ⟨node, left, here, shed, value⟩ := holds.exists_node sheds
      obtain ⟨element, lower, rfl⟩ :=
        opens.element_of_shed sound here shed value declared kind array found
      exact ⟨refusals_none _, .item lower rfl⟩

/-! ## Violations -/

/-- What is raised where a well-formed node has lost fields is a breach of its type. -/
theorem Raised.commits_of_shed (sound : validator.registry.Sound)
    (wellFormed : validator.WellFormedAt site.depth node) (sheds : node.Sheds change)
    (value : site.value = (node.mapHeads change).toJson)
    (accepted : validator.refusals site.parent site.value = []) {violation : Violation}
    (raised : validator.Raised site violation) :
    ∃ schema breach, validator.registry.get? node.typeName = some schema ∧
      validator.Commits schema (node.mapHeads change).toMap breach ∧
      violation = breach.violation site.path (some schema.name) := by
  have read : site.value.map? = some (node.mapHeads change).toMap := by
    rw [value, Node.map?_toJson]
  cases raised with
  | notNode none => cases none.symm.trans read
  | tooDeep _ deep => exact absurd wellFormed.shallow (Nat.not_lt.2 deep)
  | untyped here _ untyped =>
    obtain rfl := Option.some.inj (read.symm.trans here)
    obtain ⟨schema, known⟩ := wellFormed.registered
    have unknown := (typeOf_eq_error untyped).1
    rw [schemaOf?_toMap (sheds.head.unshadowed (wellFormed.unshadowed sound)), Node.typeName,
      sheds.head.typeName] at unknown
    cases unknown.symm.trans known
  | breach opens commits =>
    obtain ⟨rfl, known⟩ := opens.of_shed sound wellFormed sheds value
    exact ⟨_, _, known, commits, rfl⟩
  | @refused _ parent place item _ _ container refused =>
    have kinds := kinds_childBreach validator parent place item
    rw [Site.child, if_pos container] at accepted
    rw [accepted, refused] at kinds
    cases kinds

/-- What is left of a node that obeyed its type may only lack a required field. -/
theorem Commits.lacks_of_shed {breach : Breach} (obeys : validator.Obeys schema node)
    (flawless : schema.flaw? = none) (sheds : node.Sheds change)
    (commits : validator.Commits schema (node.mapHeads change).toMap breach) :
    ∃ field spec, breach = .fieldAbsent field ∧ schema.fields.get? field = some spec ∧
      spec.required = true ∧ (node.mapHeads change).field? field = none ∧
      validator.coversLegacy schema spec (node.mapHeads change).head.data = false := by
  have unshadowed := sheds.head.unshadowed (obeys.unshadowed flawless)
  obtain ⟨field, spec, same, lacks⟩ := commits.lacks (obeys.fits_shed flawless sheds)
  have notBase := Schema.declared_not_base flawless lacks.declared
  exact ⟨field, spec, same, lacks.declared, lacks.required,
    (Node.get?_toMap_of_not_base unshadowed notBase).symm.trans lacks.absent,
    dataOf?_toMap unshadowed ▸ lacks.uncovered⟩

/-- All that a document that has lost fields can be charged with is that what is left of a node at a
place of the tree lacks a required field, and `data` does not make up for it. -/
theorem lacks_of_mem_violations_shed (sound : validator.registry.Sound)
    (wellFormed : validator.WellFormedAt 0 tree) (sheds : tree.Sheds change)
    {violation : Violation}
    (mem : violation ∈ validator.violations (tree.mapHeads change).toJson) :
    ∃ places node schema field spec, tree.at? places = some node ∧
      validator.registry.get? node.typeName = some schema ∧ validator.Obeys schema node ∧
      schema.fields.get? field = some spec ∧ spec.required = true ∧
      (node.mapHeads change).field? field = none ∧
      validator.coversLegacy schema spec (node.mapHeads change).head.data = false ∧
      violation = (Breach.fieldAbsent field).violation (.ofPlaces places) (some schema.name) := by
  obtain ⟨site, checked, raised⟩ := Raised.of_mem_violations mem
  obtain ⟨accepted, holds⟩ := holds_of_checked sound wellFormed sheds checked
  cases holds with
  | @place places node there path here value =>
    obtain ⟨schema, breach, known, commits, rfl⟩ :=
      raised.commits_of_shed sound here (sheds.at? there) value accepted
    have obeys := (here.of_registered known).1
    obtain ⟨field, spec, rfl, lack⟩ :=
      commits.lacks_of_shed obeys (sound _ schema known).2.2 (sheds.at? there)
    obtain ⟨declared, required, absent, uncovered⟩ := lack
    exact ⟨places, node, schema, field, spec, there, known, obeys, declared, required, absent,
      uncovered, path ▸ rfl⟩
  | @item node here value =>
    -- An item is as it was, and had all that it needs.
    rw [← Node.mapHeads_id node] at value
    obtain ⟨schema, breach, known, commits, rfl⟩ :=
      raised.commits_of_shed sound here node.sheds_id value accepted
    have obeys := (here.of_registered known).1
    obtain ⟨field, spec, -, declared, required, absent, uncovered⟩ :=
      commits.lacks_of_shed obeys (sound _ schema known).2.2 node.sheds_id
    rw [Node.mapHeads_id] at absent uncovered
    exact absurd (obeys.required field spec declared required absent)
      (Bool.eq_false_iff.1 uncovered)

end Validator
end DocTree
