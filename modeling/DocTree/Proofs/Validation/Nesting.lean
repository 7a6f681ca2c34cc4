import DocTree.Proofs.Json.Nesting
import DocTree.Proofs.Migration.Validity
import DocTree.Proofs.Registry.Skipping
import DocTree.Proofs.Validation.Forms

/-!
# Nesting and the depth limit

The depth limit is a limit for nodes: the objects at the limit are refused, wherever nodes stand.
What an object holds under other keys is not gone into, and no limit is set to it; so the limit
bounds how deep the object of an accepted tree nests only up to such values.

## Main definitions

* `Validator.OpaqueWithin` — how deep the values nest that are not gone into.

## Main statements

* `Validator.depthLimit_mem_failuresAt_iff` — what is refused for its depth.
* `Validator.nesting_le_of_opaqueWithin` — the bound up to the values that are not gone into.
* `Validator.WellFormedAt.withDataEntry` — more `data` does no harm.
* `Engine.nesting_of_parsed` — what the depth limit bounds, and what it does not.
-/

namespace DocTree
namespace Validator

variable {validator : Validator} {schema : Schema} {object : KeyMap Json} {site : Site}

/-! ## The depth limit -/

/-- What is refused for its depth is an object at the depth limit. -/
theorem depthLimit_mem_failuresAt_iff :
    .depthLimit ∈ validator.failuresAt site ↔
      (∃ object, site.value.map? = some object) ∧
        validator.settings.maxDepth ≤ site.depth := by
  have field : ∀ schema object field spec,
      .depthLimit ∉ validator.fieldFailures schema object field spec := by
    intro schema object field spec
    unfold fieldFailures
    split <;> split <;> simp
  have elsewhere : ∀ schema object, .depthLimit ∉ validator.failures schema object := by
    simp [failures, field]
  have refused : .depthLimit ∉ validator.refusals site.parent site.value := by
    unfold refusals
    split <;> simp
  unfold failuresAt
  rw [List.mem_append, or_iff_right refused]
  cases site.value.map? with
  | none => simp
  | some object =>
    by_cases shallow : site.depth < validator.settings.maxDepth
    · cases known : validator.schemaOf? object <;> simp [shallow, known, elsewhere]
    · simp [shallow, Nat.le_of_not_lt shallow]

/-! ## Arrays of nodes -/

/-- Where nodes stand in an object that keeps all rules, there is an array. -/
theorem Admits.array_of_holdsNodes (admits : validator.Admits schema object) {key : String}
    (nodes : schema.HoldsNodes key) {value : Json} (found : object.get? key = some value) :
    ∃ items, value = .array items := by
  rcases nodes with rfl | ⟨spec, declared, kind⟩
  · have content := admits.content
    cases contentClass : schema.contentClass <;>
      simp [contentClass, ContentClass.fits, KeyMap.contains, found,
        Option.isSome_iff_exists, items?_eq_some_iff] at content
    exact content.1
  · have fits := admits.fields key spec value declared found
    rw [kind] at fits
    cases value <;> simp [FieldKind.fits] at fits
    exact ⟨_, rfl⟩

/-- The items of an array of nodes lie right below the object. -/
theorem Opens.exists_below (opens : validator.Opens site schema object) {key : String}
    (nodes : schema.HoldsNodes key) {items : List Json}
    (found : object.get? key = some (.array items)) {item : Json} (mem : item ∈ items) :
    ∃ next, validator.Below site next ∧ next.value = item := by
  obtain ⟨place, there⟩ := List.getElem?_of_mem mem
  rcases nodes with rfl | ⟨spec, declared, kind⟩
  · exact ⟨_, .child opens found there, rfl⟩
  · exact ⟨_, .element opens declared kind found there, rfl⟩

/-! ## The bound -/

/-- The values at a site that are not gone into nest so deep at most. -/
def OpaqueWithin (validator : Validator) (bound : Nat) (site : Site) : Prop :=
  ∀ schema object, validator.Opens site schema object → ∀ key value,
    object.get? key = some value → ¬schema.HoldsNodes key → value.nesting ≤ bound

/-- A value without failures nests as deep as nodes may below it, each with an array around it, and
as the values in the last of them. -/
theorem nesting_le_of_opaqueWithin {bound levels : Nat}
    (deep : levels + site.depth = validator.settings.maxDepth) (canonical : site.value.Canonical)
    (clean : ∀ next, validator.Checked site next → validator.failuresAt next = [])
    (within : ∀ next, validator.Checked site next → validator.OpaqueWithin bound next) :
    site.value.nesting < 2 * levels + max 1 bound := by
  -- By induction on the levels that are left; where none is left, nothing is accepted.
  induction levels generalizing site with
  | zero =>
    obtain ⟨-, _, _, opens, -⟩ := admits_of_failuresAt (clean site .start)
    have := opens.shallow
    omega
  | succ levels ih =>
    obtain ⟨-, schema, object, opens, admits⟩ := admits_of_failuresAt (clean site .start)
    have whole := canonical.eq_ofMap opens.read
    suffices parts : site.value.nesting ≤ 2 * levels + max 1 bound + 1 by omega
    rw [whole, Json.nesting_ofMap_le_iff]
    intro key value found
    by_cases nodes : schema.HoldsNodes key
    · obtain ⟨items, rfl⟩ := admits.array_of_holdsNodes nodes found
      -- An array takes one level of nesting, and its items a level of nodes less.
      suffices inside : (Json.array items).nesting ≤ 2 * levels + max 1 bound - 1 + 1 by omega
      rw [Json.nesting_array_le_iff]
      intro item mem
      obtain ⟨next, below, rfl⟩ := opens.exists_below nodes found mem
      have later : ∀ {last}, validator.Checked next last → validator.Checked site last :=
        fun checked => (Checked.start.step below).trans checked
      have depth := below.depth.1
      have := ih (by omega) (canonical.get?_items opens.read found mem)
        (fun last checked => clean last (later checked))
        (fun last checked => within last (later checked))
      omega
    · have := within site .start schema object opens key value found nodes
      omega

/-! ## More data -/

/-- What `data` makes up for, it makes up for with one more entry. -/
theorem coversLegacy_withDataEntry {spec : FieldSpec} {head : Head} (key : String) (value : Json)
    (h : validator.coversLegacy schema spec head.data = true) :
    validator.coversLegacy schema spec (head.withDataEntry key value).data = true := by
  obtain ⟨legacy, origin, promoted, recent, left⟩ := coversLegacy_iff.1 h
  refine coversLegacy_iff.2 ⟨legacy, origin, promoted, recent, ?_⟩
  obtain ⟨data, stored, has⟩ := Option.any_eq_true _ _ |>.1 left
  simp only [Head.withDataEntry, stored, Option.any_some, Option.getD_some, KeyMap.contains,
    KeyMap.get?_insert]
  split
  · rfl
  · exact has

/-- An entry of `data` at the root does a well-formed tree no harm, whatever its value is. -/
theorem WellFormedAt.withDataEntry {depth : Nat} {node : Node}
    (h : validator.WellFormedAt depth node) (key : String) (value : Json) :
    validator.WellFormedAt depth (node.mapHead (·.withDataEntry key value)) := by
  rw [WellFormedAt] at h ⊢
  obtain ⟨shallow, schema, known, obeys, lists, children⟩ := h
  have field : ∀ name, (node.mapHead (·.withDataEntry key value)).field? name =
      node.field? name := by
    intro name
    rw [Node.field?, Node.head_mapHead]
    rfl
  refine ⟨shallow, schema, ?_, ⟨?_, ?_, ?_, ?_⟩, ?_, ?_⟩
  · rw [Node.typeName, Node.head_mapHead]
    exact known
  · rw [Node.contentClass_mapHead]
    exact obeys.content
  · rw [Node.value?_mapHead]
    exact obeys.value
  · simpa only [field] using obeys.fields
  · intro name spec declared required absent
    rw [Node.head_mapHead]
    exact coversLegacy_withDataEntry key value
      (obeys.required name spec declared required (field name ▸ absent))
  · simpa only [field] using lists
  · rw [Node.children_mapHead]
    exact children

end Validator

/-- What is put into `data` nests less deep than the object of the node, by the object of the node
and that of its `data`. -/
theorem Node.nesting_withDataEntry {node : Node} (unshadowed : node.head.Unshadowed) (key : String)
    (value : Json) :
    value.nesting + 2 ≤ (node.mapHead (·.withDataEntry key value)).toJson.nesting := by
  let after := node.mapHead (·.withDataEntry key value)
  let data := (node.head.data.getD .empty).insert key value
  have head : after.head = node.head.withDataEntry key value := Node.head_mapHead _ _
  have stored : after.toMap.get? "data" = some (.ofMap data) := by
    rw [Node.get?_toMap_data (head ▸ unshadowed), head]
    rfl
  have entry : data.get? key = some value := KeyMap.get?_insert_self ..
  have outer := Json.nesting_lt_of_get? stored
  have inner := Json.nesting_lt_of_get? entry
  have object : after.toJson = .ofMap after.toMap := rfl
  rw [object]
  omega

/-! ## Engines -/

namespace Engine

variable {engine : Engine}

/-- With an entry of `data` at its root, a tree that is taken in is taken in as well. -/
theorem Parsed.withDataEntry {tree : Node} (sound : engine.registry.Sound) (h : engine.Parsed tree)
    (key : String) {value : Json} (canonical : value.Canonical) :
    engine.Parsed (tree.mapHead (·.withDataEntry key value)) := by
  obtain ⟨wellFormed, whole⟩ := h.wellFormed sound
  have tidy := wellFormed.tidy sound whole
  have neat := (Node.tidy_iff.1 tidy).1
  have changed : (tree.mapHead (·.withDataEntry key value)).Tidy :=
    tidy.mapHead neat.unshadowed (neat.canonical.withDataEntry key canonical)
  have after := (Node.tidy_iff_canonical.1 changed).2
  refine .value after (result_validate_eq_ok_iff.2 ?_)
  exact (Validator.result_eq_ok_iff_wellFormed sound after).2
    ⟨rfl, wellFormed.withDataEntry key value⟩

/-- **What the depth limit bounds.** A text is reported to nest too deep at the paths of the objects
that stand at the limit where nodes are expected. So the object of a tree that is taken in nests no
deeper than so many nodes with their arrays, and a value that is not gone into. But how deep such a
value nests is not limited: next to any tree that is taken in, there are trees that nest as deep as
one likes. -/
theorem nesting_of_parsed (reachable : engine.registry.Reachable) :
    (∀ text document, ingest text = .ok document →
      ∃ violations, (engine.checkText text).result = .ok violations ∧
        ∀ path, (path, .depthLimit) ∈ violations.map Violation.failure ↔
          ∃ site, engine.validator.Checked (Site.root document) site ∧ site.path = path ∧
            (∃ object, site.value.map? = some object) ∧
            engine.settings.validation.maxDepth ≤ site.depth) ∧
    ∀ tree, engine.Parsed tree →
      (∀ bound, (∀ site, engine.validator.Checked (Site.root tree.toJson) site →
          engine.validator.OpaqueWithin bound site) →
        tree.toJson.nesting < 2 * engine.settings.validation.maxDepth + max 1 bound) ∧
      ∀ key depth, ∃ value, engine.Parsed (tree.mapHead (·.withDataEntry key value)) ∧
        depth < (tree.mapHead (·.withDataEntry key value)).toJson.nesting := by
  have sound := reachable.sound
  refine ⟨fun text document read => ⟨_, checkText_eq read, fun path => ?_⟩, fun tree parsed => ?_⟩
  · rw [Validator.mem_violations_iff]
    simp only [Validator.depthLimit_mem_failuresAt_iff]
    rfl
  · obtain ⟨wellFormed, canonical⟩ := parsed.wellFormed sound
    refine ⟨fun bound within => ?_, fun key depth => ?_⟩
    · have accepted := (Validator.result_eq_ok_iff_wellFormed sound canonical).2 ⟨rfl, wellFormed⟩
      have clean := Validator.violations_eq_nil_of_accepted accepted
      have deep : engine.settings.validation.maxDepth + (Site.root tree.toJson).depth =
          engine.validator.settings.maxDepth := Nat.add_zero _
      exact Validator.nesting_le_of_opaqueWithin deep canonical
        (fun next => Validator.failuresAt_eq_nil clean) within
    · refine ⟨.brackets depth, parsed.withDataEntry sound key (Json.canonical_brackets depth), ?_⟩
      have nested := Node.nesting_withDataEntry (wellFormed.unshadowed sound) key (.brackets depth)
      rw [Json.nesting_brackets] at nested
      omega

end Engine

/-! ## The sample -/

namespace Sample

/-- An engine for figures without fields, none inside another node. -/
def shallow : Engine :=
  { registry := figuresOnly bareFigure, settings := { validation := { maxDepth := 1 } } }

theorem reachable_shallow : shallow.registry.Reachable :=
  Registry.Reachable.empty.register register_bareFigure

/-- A figure with brackets in its `data`. -/
def nestedFigure (n : Nat) : Node :=
  .empty { typeName := "Figure", data := some (KeyMap.empty.insert "a" (.brackets n)) }

/-- The text of a figure up to an entry of its `data`. -/
def opening : String := "\x7b\"type\":\"Figure\",\"data\":\x7b\"a\":"

/-- The text of a figure with brackets in its `data`. -/
def nestedText (n : Nat) : String :=
  .ofList (opening.toList ++ (bracketsText n ++ "\x7d\x7d".toList))

theorem parse_nestedText (n : Nat) : Json.parse (nestedText n) = .ok (nestedFigure n).toJson := by
  let frames : List Frame := [.object [] "a", .object [("type", .string "Figure")] "data"]
  -- Three steps lead to where the value of the entry is due.
  have opened : ∀ fuel rest, readFrames none (fuel + 3) [] (opening.toList ++ rest) =
      readFrames none fuel frames rest := fun _ _ => rfl
  have object : (nestedFigure n).toJson = .ofMap (.ofList [("type", .string "Figure"),
      ("data", .ofMap (.ofList [("a", .brackets n)]))]) := by
    rw [KeyMap.ofList_eq_insertAll, KeyMap.ofList_eq_insertAll]
    rfl
  have closed : complete (.brackets n) frames "\x7d\x7d".toList =
      .ok (.finished (nestedFigure n).toJson []) := by
    rw [object]
    rfl
  have read : readValue none (nestedText n).toList = .ok ((nestedFigure n).toJson, []) := by
    have text : (nestedText n).toList = opening.toList ++ (bracketsText n ++ "\x7d\x7d".toList) :=
      String.toList_ofList
    have enough : 1 + n + 3 ≤ (nestedText n).toList.length + 1 := by
      have inside : n < (bracketsText n).length := by simp [bracketsText]; omega
      have before : 3 ≤ opening.toList.length := by decide
      rw [text, List.length_append, List.length_append]
      omega
    obtain ⟨fuel, length⟩ := Nat.exists_eq_add_of_le' enough
    have steps : (nestedText n).toList.length + 1 = fuel + 1 + n + 3 := length.trans (by omega)
    rw [readValue, steps, text]
    exact (opened _ _).trans (readFrames_brackets fuel n frames closed)
  rw [Json.parse, read]
  rfl

theorem wellFormed_nestedFigure (n : Nat) :
    shallow.validator.WellFormedAt 0 (nestedFigure n) := by
  have unset : ∀ {α : Type} {key : String} {value : α}, KeyMap.empty.get? key ≠ some value := by
    simp
  rw [Validator.WellFormedAt]
  refine ⟨Nat.one_pos, bareFigure, rfl, ⟨rfl, ?_, ?_, ?_⟩, ?_, List.forall_mem_nil _⟩
  · intro value found
    cases found
  · exact fun field value found => absurd found unset
  · exact fun field spec declared => absurd declared unset
  · exact fun field spec items declared => absurd declared unset

theorem parsed_nestedText (n : Nat) :
    (shallow.parse (nestedText n)).result = .ok (nestedFigure n) := by
  have sound := reachable_shallow.sound
  have wellFormed := wellFormed_nestedFigure n
  have accepted : (shallow.validator.validate (nestedFigure n).toJson).result =
      .ok (nestedFigure n) :=
    (Validator.result_eq_ok_iff_wellFormed sound (.of_parse (parse_nestedText n))).2
      ⟨rfl, wellFormed⟩
  have read : Engine.ingest (nestedText n) = .ok (nestedFigure n).toJson := by
    rw [Engine.ingest, parse_nestedText]
    rfl
  rw [Engine.parse, read]
  exact Engine.result_validate_eq_ok_iff.2 accepted

theorem lt_nesting_nestedFigure (n : Nat) : n < (nestedFigure n).toJson.nesting := by
  have unshadowed : (Node.empty { typeName := "Figure" }).head.Unshadowed := fun _ _ => rfl
  have nested := Node.nesting_withDataEntry unshadowed "a" (.brackets n)
  rw [Json.nesting_brackets] at nested
  exact Nat.lt_of_lt_of_le (by omega) nested

/-- A figure inside a figure. -/
def innerFigure : Json := .object [("type", .string "Figure")]

/-- The text of a figure with another one as its child. -/
def crowdedText : String :=
  "\x7b\"type\":\"Figure\",\"children\":[\x7b\"type\":\"Figure\"\x7d]\x7d"

/-- The object of the text. -/
def crowdedFigure : Json :=
  .object [("children", .array [innerFigure]), ("type", .string "Figure")]

end Sample

namespace Engine

/-- The sample keeps a figure with brackets in its `data`, whose object nests three deep, and so it
does with brackets that nest deeper by far. Of a figure inside a figure it reports that it nests too
deep. -/
theorem nesting_of_parsed_shallow :
    Sample.shallow.registry.Reachable ∧
      (∃ violations, (Sample.shallow.checkText Sample.crowdedText).result = .ok violations ∧
        (Path.root.child 0, .depthLimit) ∈ violations.map Violation.failure) ∧
      (Sample.nestedFigure 0).toJson.nesting < 4 ∧
      ∃ value, Sample.shallow.Parsed ((Sample.nestedFigure 0).mapHead (·.withDataEntry "b" value)) ∧
        1000 < ((Sample.nestedFigure 0).mapHead (·.withDataEntry "b" value)).toJson.nesting := by
  have reachable := Sample.reachable_shallow
  obtain ⟨reports, bounds⟩ := nesting_of_parsed reachable
  obtain ⟨violations, report, deep⟩ := reports Sample.crowdedText Sample.crowdedFigure rfl
  obtain ⟨bounded, unbounded⟩ := bounds _ (.text (Sample.parsed_nestedText 0))
  have inner : Sample.shallow.validator.Checked (Site.root Sample.crowdedFigure)
      ((Site.root Sample.crowdedFigure).child Sample.bareFigure 0 Sample.innerFigure) :=
    Validator.mem_within_root_iff.1 (.tail _ (.head _))
  have within : ∀ site,
      Sample.shallow.validator.Checked (Site.root (Sample.nestedFigure 0).toJson) site →
        Sample.shallow.validator.OpaqueWithin 2 site := by
    intro site checked schema object opens key value found _
    have single : site = Site.root (Sample.nestedFigure 0).toJson :=
      List.mem_singleton.1 (Validator.mem_within_root_iff.2 checked)
    rw [single] at opens
    obtain rfl := Option.some.inj ((Node.map?_toJson _).symm.trans opens.read)
    have nested : value.nesting < (Sample.nestedFigure 0).toJson.nesting :=
      Json.nesting_lt_of_get? found
    have three : (Sample.nestedFigure 0).toJson.nesting = 3 := by rfl
    omega
  exact ⟨reachable, ⟨violations, report, (deep _).2 ⟨_, inner, rfl, ⟨_, rfl⟩, Nat.le_refl 1⟩⟩,
    bounded 2 within, unbounded "b" 1000⟩

/-- It is not so that each depth limit bounds how deep the objects of the trees nest that are taken
in from texts: with the least limit, brackets in `data` are kept to any nesting. -/
theorem nesting_not_bounded :
    ¬∀ depth, 1 ≤ depth → depth ≤ maxSupportedDepth →
      ∃ bound, ∀ (registry : Registry) (settings : Settings) (engine : Engine) (text : String)
        (tree : Node), registry.Reachable → settings.validation.maxDepth = depth →
          make registry settings = .ok engine → (engine.parse text).result = .ok tree →
            tree.toJson.nesting ≤ bound := by
  intro bounded
  obtain ⟨bound, within⟩ := bounded 1 (Nat.le_refl 1) (by decide)
  have least := within _ Sample.shallow.settings Sample.shallow _ _ Sample.reachable_shallow rfl rfl
    (Sample.parsed_nestedText bound)
  have more := Sample.lt_nesting_nestedFigure bound
  omega

end Engine
end DocTree
