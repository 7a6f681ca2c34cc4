import DocTree.Proofs.Validation.Report
import DocTree.Proofs.Validation.WellFormed

/-!
# What is accepted

The documents that are accepted are the objects of well-formed nodes, and the tree of such a
document is the node that it is the object of.

## Main definitions

* `Sample.registry`, `Sample.boxed` — a small registry, and a tree of its types.
* `Validator.Decides` — a check accepts the objects of the nodes of a sort, and nothing else.

## Main statements

* `Validator.checkNode_clean_iff` — an object has no violation when it keeps all rules and nothing
  right below it has one.
* `Validator.decides_check` — a check accepts the objects of well-formed nodes.
* `Validator.validate_exact` — what is accepted, and what a refusal carries.
-/

namespace DocTree

/-! ## A sample -/

namespace Sample

/-- Figures have a label, which stood in `data` before the second version. -/
def figure : Schema :=
  { Schema.empty "Figure" .block with version := 2 }.withField "label"
    { kind := .string, required := true, promotedFrom := some ⟨"label", 2⟩ }

/-- The label of figures. -/
def label : FieldSpec := { kind := .string, required := true, promotedFrom := some ⟨"label", 2⟩ }

theorem fields_figure {field : String} {spec : FieldSpec}
    (h : figure.fields.get? field = some spec) : field = "label" ∧ spec = label := by
  have mem : (field, spec) ∈ [("label", label)] := KeyMap.mem_entries_iff.2 h
  simpa using mem

/-- Boxes contain anything, and may list nodes besides. -/
def box : Schema := (Schema.container "Box" .block .any).withField "items" { kind := .nodeList }

/-- A registry of boxes and figures. -/
def registry : Registry := ⟨(KeyMap.empty.insert "Box" box).insert "Figure" figure⟩

def validator : Validator := { registry }

theorem reachable_registry : registry.Reachable :=
  have boxes : Registry.empty.register box =
      .ok (.inserted, ⟨KeyMap.empty.insert "Box" box⟩) := by rfl
  have figures : Registry.register ⟨KeyMap.empty.insert "Box" box⟩ figure =
      .ok (.inserted, registry) := by rfl
  (Registry.Reachable.empty.register boxes).register figures

/-- A figure whose label still stands in `data`. -/
def earlyFigure (label : Json) : Node :=
  .empty { typeName := "Figure", data := some (KeyMap.empty.insert "label" label) }

/-- A box with a figure as its child and as an item. -/
def boxed : Node :=
  .container
    { typeName := "Box"
      fields := KeyMap.empty.insert "items" (.array [(earlyFigure (.string "a")).toJson]) }
    [earlyFigure (.string "b")]

/-- A figure with its label in its place. -/
def lateFigure (label : Json) : Node :=
  .empty
    { typeName := "Figure", fields := KeyMap.empty.insert "label" label, data := some .empty }

/-- The sample with the label of the child in its place, and that of the item still in `data`. -/
def promotedBox : Node := .container boxed.head [lateFigure (.string "b")]

end Sample

namespace Validator

variable {validator : Validator} {check : Path → Json → Verdict} {good : Node → Prop}

/-! ## Checks that decide -/

/-- A check accepts the objects of the nodes of a sort, as these nodes, and finds violations in all
other values. -/
structure Decides (check : Path → Json → Verdict) (good : Node → Prop) : Prop where
  node : ∀ path value node, value.Canonical →
    ((check path value).node = some node ↔ node.toJson = value ∧ good node)
  clean : ∀ path value,
    (∃ node, (check path value).node = some node) ↔ (check path value).findings.violations = []

theorem Decides.clean_iff (h : Decides check good) {path : Path} {value : Json}
    (canonical : value.Canonical) :
    (check path value).findings.violations = [] ↔ ∃ node : Node, node.toJson = value ∧ good node :=
  (h.clean path value).symm.trans (exists_congr fun node => h.node path value node canonical)

/-! ## One object -/

theorem refusals_eq_nil_iff {parent : Schema} {child : Json} :
    validator.refusals (some parent) child = [] ↔
      ∀ object, child.map? = some object → ∀ schema, validator.schemaOf? object = some schema →
        parent.childClass.accepts schema.category = true := by
  unfold refusals
  cases child.map? with
  | none => simp
  | some object => cases known : validator.schemaOf? object <;> simp [known]

/-- An object has no violation when it keeps all rules and nothing right below it has one. -/
theorem checkNode_clean_iff (check : Path → Json → Verdict) {site : Site} {schema : Schema}
    {object : KeyMap Json} (h : validator.Opens site schema object) :
    (validator.checkNode check site.path schema object).findings.violations = [] ↔
      validator.Admits schema object ∧ ∀ next, validator.Below site next →
        validator.refusals next.parent next.value = [] ∧
          (check next.path next.value).findings.violations = [] := by
  have report := failures_checkNode check h
  have empty : ∀ findings : Findings, findings.failures = [] ↔ findings.violations = [] :=
    fun findings => List.map_eq_nil_iff
  rw [← empty, ← List.length_eq_zero_iff, report.length_eq, List.length_eq_zero_iff]
  simp only [reported, List.append_eq_nil_iff, List.map_eq_nil_iff, List.flatMap_eq_nil_iff, empty,
    failures_eq_nil_iff, mem_sitesBelow_iff]

theorem node_checkNode (check : Path → Json → Verdict) (path : Path) (schema : Schema)
    (object : KeyMap Json) :
    (validator.checkNode check path schema object).node =
      if (validator.checkNode check path schema object).findings.violations = [] then
        nodeOf schema object
          (((childItems object).mapIdx fun place child =>
            (check (path.child place) child).node).filterMap id)
      else none := by
  have nodes : ((childItems object).mapIdx fun place child =>
        validator.checkChild check path schema place child).filterMap (·.node) =
      ((childItems object).mapIdx fun place child =>
        (check (path.child place) child).node).filterMap id := by
    simp [List.mapIdx_eq_zipIdx_map, List.filterMap_map, checkChild]
  rw [← nodes]
  simp only [checkNode, childItems, List.isEmpty_iff]

/-- An object has a tree when it has no violation. -/
theorem exists_node_checkNode_iff (check : Path → Json → Verdict) {site : Site} {schema : Schema}
    {object : KeyMap Json} (h : validator.Opens site schema object) :
    (∃ node, (validator.checkNode check site.path schema object).node = some node) ↔
      (validator.checkNode check site.path schema object).findings.violations = [] := by
  rw [node_checkNode]
  split
  · rename_i clean
    have admits := ((checkNode_clean_iff check h).1 clean).1
    exact iff_of_true (exists_nodeOf admits.content _) clean
  · rename_i unclean
    exact iff_of_false (fun ⟨_, node⟩ => by cases node) unclean

/-! ## Lists of children -/

/-- When each item is read as a node whose object it is, so is the list. -/
theorem nodes_of_items {items : List Json} {read : Nat → Json → Option Node}
    (h : ∀ place item, items[place]? = some item →
      ∃ node : Node, read place item = some node ∧ node.toJson = item ∧ good node) :
    ((items.mapIdx read).filterMap id).map Node.toJson = items ∧
      ∀ node ∈ (items.mapIdx read).filterMap id, good node := by
  induction items generalizing read with
  | nil => simp
  | cons item items ih =>
    obtain ⟨node, first, object, fine⟩ := h 0 item rfl
    have later := ih fun place item found =>
      h (place + 1) item found
    rw [List.mapIdx_cons, first, List.filterMap_cons_some (id_eq _)]
    exact ⟨List.cons_eq_cons.2 ⟨object, later.1⟩, List.forall_mem_cons.2 ⟨fine, later.2⟩⟩

/-- When the object of each node is read as that node, so is the list. -/
theorem nodes_of_objects {nodes : List Node} {read : Nat → Json → Option Node}
    (h : ∀ place, ∀ node ∈ nodes, read place node.toJson = some node) :
    ((nodes.map Node.toJson).mapIdx read).filterMap id = nodes := by
  induction nodes generalizing read with
  | nil => rfl
  | cons node nodes ih =>
    have first := h 0 node List.mem_cons_self
    have later := ih fun place other mem =>
      h (place + 1) other (List.mem_cons_of_mem _ mem)
    rw [List.map_cons, List.mapIdx_cons, first, List.filterMap_cons_some (id_eq _)]
    exact congrArg _ later

/-! ## Whole values -/

theorem schemaOf?_eq_some {object : KeyMap Json} {schema : Schema}
    (sound : validator.registry.Sound) (h : validator.schemaOf? object = some schema) :
    object.get? "type" = some (.string schema.name) ∧
      validator.registry.get? schema.name = some schema ∧ schema.flaw? = none := by
  obtain ⟨name, type, known⟩ := Option.bind_eq_some_iff.1 h
  obtain ⟨value, found, named⟩ := Option.bind_eq_some_iff.1 type
  obtain ⟨rfl, -, flawless⟩ := sound name schema known
  have text : value = .string schema.name := by
    cases value <;> simp_all [Json.string?]
  exact ⟨text ▸ found, known, flawless⟩

/-- A node that a container has no reason to refuse is accepted by it, and the other way round. -/
theorem refusals_toJson_iff {parent : Schema} {child : Node} (h : child.head.Unshadowed)
    {schema : Schema} (known : validator.registry.get? child.typeName = some schema) :
    validator.refusals (some parent) child.toJson = [] ↔ validator.Accepts parent child := by
  rw [refusals_eq_nil_iff]
  simp [schemaOf?_toMap h, known, Accepts]

/-- The tree of an object above the depth limit is well formed and has that object. -/
theorem checkNode_sound {site : Site} {schema : Schema} {object : KeyMap Json} {node : Node}
    (sound : validator.registry.Sound) (h : validator.Opens site schema object)
    (canonical : site.value.Canonical)
    (lower : Decides check (validator.WellFormedAt (site.depth + 1)))
    (accepted : (validator.checkNode check site.path schema object).node = some node) :
    node.toJson = site.value ∧ validator.WellFormedAt site.depth node := by
  rw [node_checkNode] at accepted
  split at accepted
  case isFalse => cases accepted
  rename_i clean
  obtain ⟨admits, below⟩ := (checkNode_clean_iff check h).1 clean
  obtain ⟨named, known, flawless⟩ := schemaOf?_eq_some sound h.known
  have whole : site.value = .ofMap object := canonical.eq_ofMap h.read
  have items : ∀ place item, (childItems object)[place]? = some item → ∃ child : Node,
      (check (site.path.child place) item).node = some child ∧ child.toJson = item ∧
        (validator.WellFormedAt (site.depth + 1) child ∧
          (schema.contentClass = .container → validator.Accepts schema child)) := by
    intro place item found
    obtain ⟨items, array, found⟩ := getElem?_childItems_iff.1 found
    obtain ⟨accepted, clean⟩ := below _ (.child h array found)
    obtain ⟨child, read⟩ := (lower.clean _ _).2 clean
    obtain ⟨object, fine⟩ :=
      (lower.node _ _ child (canonical.get?_items h.read array (List.mem_of_getElem? found))).1 read
    refine ⟨child, read, object, fine, ?_⟩
    intro container
    subst object
    obtain ⟨found, known⟩ := fine.registered
    simpa [Site.child, container, refusals_toJson_iff (fine.unshadowed sound) known] using accepted
  obtain ⟨objects, children⟩ := nodes_of_items items
  obtain ⟨found, built, toMap, typeName, unshadowed, mem⟩ :=
    toMap_nodeOf admits (whole ▸ canonical) named objects
  obtain rfl : found = node := Option.some.inj (built.symm.trans accepted)
  have obeys : validator.Obeys schema found :=
    (admits_toMap_iff unshadowed flawless).1 (toMap.symm ▸ admits)
  refine ⟨by rw [Node.toJson, toMap, whole], ?_⟩
  rw [WellFormedAt]
  refine ⟨h.shallow, schema, typeName ▸ known, obeys, ?_, ?_⟩
  · intro field spec items declared kind list item itemMem
    have array : object.get? field = some (.array items) := by
      rw [← toMap, Node.get?_toMap_of_not_base unshadowed
        (Schema.declared_not_base flawless declared), list]
    obtain ⟨place, found⟩ := List.mem_iff_getElem?.1 itemMem
    have clean := (below _ (.element h declared kind array found)).2
    exact (lower.clean_iff (canonical.get?_items h.read array itemMem)).1 clean
  · intro child childMem
    obtain ⟨fine, accepts⟩ := children child (mem child childMem)
    refine ⟨fine, accepts (obeys.content.symm.trans ?_)⟩
    cases found <;> simp_all [Node.children, Node.contentClass]

/-- The object of a well-formed node above the depth limit is accepted as that node. -/
theorem checkNode_complete {site : Site} {schema : Schema} {node : Node}
    (sound : validator.registry.Sound) (h : validator.Opens site schema node.toMap)
    (canonical : node.toJson.Canonical)
    (lower : Decides check (validator.WellFormedAt (site.depth + 1)))
    (wellFormed : validator.WellFormedAt site.depth node) :
    (validator.checkNode check site.path schema node.toMap).node = some node := by
  have unshadowed := wellFormed.unshadowed sound
  have known := (schemaOf?_toMap unshadowed).symm.trans h.known
  obtain ⟨obeys, lists, children⟩ := wellFormed.of_registered known
  obtain ⟨named, -, flawless⟩ := sound _ schema known
  have childObjects : ∀ {items}, node.toMap.get? "children" = some (.array items) →
      items = node.children.map Node.toJson := fun array => by
    simpa [childItems, array, Json.items?] using childItems_toMap unshadowed
  have below : ∀ next, validator.Below site next →
      validator.refusals next.parent next.value = [] ∧
        (check next.path next.value).findings.violations = [] := by
    rintro _ (⟨opens, array, present⟩ | ⟨opens, declared, kind, array, present⟩)
    · obtain ⟨rfl, rfl⟩ := h.unique opens
      have mem := List.mem_of_getElem? present
      obtain ⟨child, childMem, rfl⟩ := List.mem_map.1 (childObjects array ▸ mem)
      obtain ⟨fine, accepts⟩ := children child childMem
      refine ⟨?_, (lower.clean_iff (canonical.get?_items (Node.map?_toJson node) array mem)).2
        ⟨child, rfl, fine⟩⟩
      unfold Site.child
      split
      · obtain ⟨_, childKnown⟩ := fine.registered
        exact (refusals_toJson_iff (fine.unshadowed sound) childKnown).2 accepts
      · rfl
    · obtain ⟨rfl, rfl⟩ := h.unique opens
      have mem := List.mem_of_getElem? present
      have notBase := Schema.declared_not_base flawless declared
      have list := (Node.get?_toMap_of_not_base unshadowed notBase).symm.trans array
      refine ⟨rfl, (lower.clean_iff
        (canonical.get?_items (Node.map?_toJson node) array mem)).2 ?_⟩
      exact lists _ _ _ declared kind list _ mem
  have clean := (checkNode_clean_iff check h).2
    ⟨(admits_toMap_iff unshadowed flawless).2 obeys, below⟩
  have childCanonical : ∀ child ∈ node.children, child.toJson.Canonical :=
    ((Node.canonical_toJson_iff_of_children node unshadowed).1 canonical).2
  have read : ∀ place, ∀ child ∈ node.children,
      (check (site.path.child place) child.toJson).node = some child := fun place child mem =>
    (lower.node _ _ child (childCanonical child mem)).2 ⟨rfl, (children child mem).1⟩
  rw [node_checkNode, if_pos clean, childItems_toMap unshadowed, nodes_of_objects read]
  exact nodeOf_toMap unshadowed named obeys.content

/-- A value has a tree when it has no violation. -/
theorem exists_node_check_iff {levels depth : Nat}
    (deep : levels + depth = validator.settings.maxDepth) (path : Path) (value : Json) :
    (∃ node, (validator.check levels path value).node = some node) ↔
      (validator.check levels path value).findings.violations = [] := by
  by_cases opened : ∃ schema object, validator.Opens ⟨path, depth, none, value⟩ schema object
  · obtain ⟨schema, object, opens⟩ := opened
    have shallow : depth < validator.settings.maxDepth := opens.shallow
    obtain ⟨levels, rfl⟩ : ∃ n, levels = n + 1 :=
      Nat.exists_eq_succ_of_ne_zero (by omega)
    have clean := exists_node_checkNode_iff (validator.check levels) opens
    rwa [check_succ opens.read opens.known]
  · obtain ⟨violation, refused, -⟩ := exists_refused ⟨path, depth, none, value⟩ deep
      fun schema object opens => opened ⟨schema, object, opens⟩
    simp [refused, Verdict.refused, Findings.violation]

/-- A check that goes down to the depth limit accepts the objects of well-formed nodes. -/
theorem decides_check (sound : validator.registry.Sound) {levels depth : Nat}
    (deep : levels + depth = validator.settings.maxDepth) :
    Decides (validator.check levels) (validator.WellFormedAt depth) := by
  induction levels generalizing depth with
  | zero =>
    have refused : ∀ path value, ∃ violation,
        validator.check 0 path value = .refused violation := by
      intro path value
      rw [check]
      cases value.map? <;> exact ⟨_, rfl⟩
    have tooDeep : ∀ node, ¬validator.WellFormedAt depth node := by
      intro node wellFormed
      have shallow := wellFormed.shallow
      omega
    constructor
    · intro path value node _
      obtain ⟨violation, same⟩ := refused path value
      simp [same, Verdict.refused, tooDeep]
    · exact exists_node_check_iff deep
  | succ levels ih =>
    have lower : Decides (validator.check levels) (validator.WellFormedAt (depth + 1)) :=
      ih (by omega)
    have shallow : depth < validator.settings.maxDepth := by omega
    -- A value is either refused at once or an object of a registered type.
    have split : ∀ path value,
        (∃ violation, validator.check (levels + 1) path value = .refused violation) ∨
        ∃ schema object, validator.Opens ⟨path, depth, none, value⟩ schema object ∧
          validator.check (levels + 1) path value =
            validator.checkNode (validator.check levels) path schema object := by
      intro path value
      cases read : value.map? with
      | none =>
        rw [check, read]
        exact .inl ⟨_, rfl⟩
      | some object =>
        cases known : validator.schemaOf? object with
        | none =>
          obtain ⟨violation, refused, -⟩ := check_succ_of_unknown levels path read known
          exact .inl ⟨violation, refused⟩
        | some schema =>
          exact .inr ⟨schema, object, ⟨shallow, read, known⟩, check_succ read known⟩
    refine ⟨fun path value node canonical => ⟨fun accepted => ?_, ?_⟩, fun path value => ?_⟩
    · obtain ⟨violation, refused⟩ | ⟨schema, object, opens, same⟩ := split path value
      · rw [refused] at accepted
        cases accepted
      · rw [same] at accepted
        exact checkNode_sound sound opens canonical lower accepted
    · rintro ⟨rfl, wellFormed⟩
      obtain ⟨schema, registered⟩ := wellFormed.registered
      have known := (schemaOf?_toMap (wellFormed.unshadowed sound)).trans registered
      have opens : validator.Opens ⟨path, depth, none, node.toJson⟩ schema node.toMap :=
        ⟨shallow, Node.map?_toJson node, known⟩
      have accepted := checkNode_complete sound opens canonical lower wellFormed
      rwa [check_succ (Node.map?_toJson node) known]
    · exact exists_node_check_iff deep path value

/-! ## Documents -/

theorem decides_verdict (sound : validator.registry.Sound) :
    Decides (validator.check validator.settings.maxDepth) (validator.WellFormedAt 0) :=
  decides_check sound (Nat.add_zero _)

theorem result_eq_ok_iff {raw : Json} {node : Node} :
    (validator.validate raw).result = .ok node ↔
      (validator.verdict raw).node = some node ∧
        (validator.verdict raw).findings.violations = [] := by
  unfold validate
  obtain ⟨found, violations, notices⟩ := validator.verdict raw
  cases violations <;> cases found <;> simp

/-- A document has a tree when it has no violation. -/
theorem exists_result_iff {raw : Json} :
    (∃ node, (validator.validate raw).result = .ok node) ↔ validator.violations raw = [] := by
  constructor
  · rintro ⟨node, accepted⟩
    rw [violations, accepted]
  · intro clean
    rw [violations_eq] at clean
    obtain ⟨node, found⟩ := (exists_node_check_iff (Nat.add_zero _) .root raw).2 clean
    exact ⟨node, result_eq_ok_iff.2 ⟨found, clean⟩⟩

/-- The trees of documents are the well-formed nodes whose objects they are. -/
theorem result_eq_ok_iff_wellFormed (sound : validator.registry.Sound) {raw : Json}
    (canonical : raw.Canonical) {node : Node} :
    (validator.validate raw).result = .ok node ↔
      node.toJson = raw ∧ validator.WellFormedAt 0 node := by
  have decides := decides_verdict sound
  rw [result_eq_ok_iff, ← decides.node .root raw node canonical]
  exact and_iff_left_of_imp fun accepted => (decides.clean .root raw).1 ⟨node, accepted⟩

/-- A tidy tree whose object has no violation is accepted as it is. -/
theorem result_eq_ok_of_clean (sound : validator.registry.Sound) {tree : Node} (tidy : tree.Tidy)
    (clean : validator.violations tree.toJson = []) :
    (validator.validate tree.toJson).result = .ok tree := by
  obtain ⟨unshadowed, canonical⟩ := Node.tidy_iff_canonical.1 tidy
  obtain ⟨node, accepted⟩ := exists_result_iff.2 clean
  obtain ⟨object, wellFormed⟩ := (result_eq_ok_iff_wellFormed sound canonical).1 accepted
  obtain rfl : node = tree := eq_of_toJson_eq
    (fun _ _ there => (wellFormed.at? there).unshadowed sound) unshadowed object
  exact accepted

/-- A report on a document is never empty. -/
theorem violations_ne_nil {raw : Json} {report : Report}
    (failed : (validator.validate raw).result = .error report) : report.violations ≠ [] := by
  intro empty
  have same : validator.violations raw = report.violations := by rw [violations, failed]
  obtain ⟨node, accepted⟩ := exists_result_iff.2 (same.trans empty)
  rw [accepted] at failed
  cases failed

/-- **What is accepted is well formed, and the other way round.** A document is accepted as a node
exactly when it is the object of that node and the node is well formed. So the object of a node
that was accepted is accepted again, as the same node, and a document that is not accepted has a
violation. -/
theorem validate_exact (reachable : validator.registry.Reachable) {raw : Json}
    (canonical : raw.Canonical) :
    (∀ node, (validator.validate raw).result = .ok node ↔
      node.toJson = raw ∧ validator.WellFormedAt 0 node) ∧
    (∀ node, (validator.validate raw).result = .ok node →
      (validator.validate node.toJson).result = .ok node) ∧
    ∀ report, (validator.validate raw).result = .error report → report.violations ≠ [] := by
  have exact : ∀ node, (validator.validate raw).result = .ok node ↔
      node.toJson = raw ∧ validator.WellFormedAt 0 node :=
    fun node => result_eq_ok_iff_wellFormed reachable.sound canonical
  refine ⟨exact, ?_, fun _ => violations_ne_nil⟩
  intro node accepted
  rw [((exact node).1 accepted).1]
  exact accepted

/-- The sample is accepted with the label of each of its figures still in `data`, as a child and as
an item; so it is well formed. -/
theorem validate_exact_boxed :
    Sample.registry.Reachable ∧ Sample.boxed.toJson.Canonical ∧
      (Sample.validator.validate Sample.boxed.toJson).result = .ok Sample.boxed ∧
      Sample.validator.WellFormedAt 0 Sample.boxed := by
  have reachable : Sample.validator.registry.Reachable := Sample.reachable_registry
  have canonical : Sample.boxed.toJson.Canonical := by decide
  have accepted : (Sample.validator.validate Sample.boxed.toJson).result = .ok Sample.boxed := by
    rfl
  exact ⟨reachable, canonical, accepted,
    (((validate_exact reachable canonical).1 Sample.boxed).1 accepted).2⟩

end Validator
end DocTree
