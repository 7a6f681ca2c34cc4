import DocTree.Proofs.Registry.Reachable
import DocTree.Proofs.Validation.Report

/-!
# The form of an object

What the check of an object depends on, apart from the values in its arrays of nodes: two objects
that have the same form commit the same breaches, and their checks find the same when the checks of
the values right below them do.

## Main definitions

* `Findings.View` — what is read off findings part by part.
* `Schema.HoldsNodes`, `itemsAt` — the keys with arrays of nodes, and the items under them.
* `Schema.SameForm` — two objects differ in arrays of nodes and in `data` only.

## Main statements

* `Validator.legacyKey?_eq` — of `data`, only the keys of promoted fields are read.
* `Validator.childBreach?_congr` — of a child, its container only reads the type.
* `Validator.read_checkNode_congr` — the checks of objects of one form differ below them only.
-/

namespace DocTree

/-! ## Reading findings -/

/-- What is read off findings part by part. -/
structure Findings.View (α : Type) where
  read : Findings → List α
  append : ∀ x y, read (x ++ y) = read x ++ read y
  join : ∀ parts, read (.join parts) = parts.flatMap read

namespace Findings.View

/-- The violations that a test keeps. -/
def violations (keep : Violation → Bool) : View Violation where
  read findings := findings.violations.filter keep
  append := by simp
  join := by simp [List.filter_flatMap]

/-- The notices. -/
def notices : View Notice where
  read findings := findings.notices
  append := by simp
  join := by simp

theorem read_join_mapIdx {α β : Type} (view : View α) (items : List β) (f : Nat → β → Findings) :
    view.read (.join (items.mapIdx f)) =
      (items.mapIdx fun place item => view.read (f place item)).flatten := by
  simp [view.join, List.flatMap, List.mapIdx_eq_zipIdx_map, Function.comp_def]

end Findings.View

theorem mapIdx_congr {α β : Type} {items others : List α} {f g : Nat → α → β}
    (length : items.length = others.length)
    (h : ∀ place item other, items[place]? = some item → others[place]? = some other →
      f place item = g place other) : items.mapIdx f = others.mapIdx g := by
  apply List.ext_getElem (by simp [length])
  intro place bound bound'
  rw [List.length_mapIdx] at bound bound'
  simpa using h place _ _ (List.getElem?_eq_getElem bound) (List.getElem?_eq_getElem bound')

/-! ## Objects of the same form -/

/-- The items under a key of an object, when they are an array. -/
def itemsAt (object : KeyMap Json) (key : String) : List Json :=
  ((object.get? key).bind Json.items?).getD []

theorem itemsAt_insert (object : KeyMap Json) (key k : String) (items : List Json) :
    itemsAt (object.insert key (.array items)) k = if k = key then items else itemsAt object k := by
  rw [itemsAt, KeyMap.get?_insert]
  split <;> rfl

/-- The same value, or two arrays of the same length. -/
inductive SameSpan : Option Json → Option Json → Prop
  | same (found : Option Json) : SameSpan found found
  | arrays {items others : List Json} : items.length = others.length →
      SameSpan (some (.array items)) (some (.array others))

namespace Schema

/-- Nodes stand under a key: in the array of children, or in a declared list of nodes. -/
def HoldsNodes (schema : Schema) (key : String) : Prop :=
  key = "children" ∨ ∃ spec, schema.fields.get? key = some spec ∧ spec.kind = .nodeList

/-- The same `data`, or two objects in which the same of the keys are found that fields of a type
were promoted from. -/
inductive SameData (schema : Schema) : Option Json → Option Json → Prop
  | same (found : Option Json) : SameData schema found found
  | objects {value other : Json} {data instead : KeyMap Json} :
      value.map? = some data → other.map? = some instead →
      (∀ field spec origin, schema.fields.get? field = some spec →
        spec.promotedFrom = some origin →
        data.contains origin.dataKey = instead.contains origin.dataKey) →
      SameData schema (some value) (some other)

/-- Two objects of a type that differ in the items of arrays of nodes and in `data` only. -/
structure SameForm (schema : Schema) (object other : KeyMap Json) : Prop where
  plain : ∀ key, key ≠ "data" → ¬schema.HoldsNodes key → object.get? key = other.get? key
  nodes : ∀ key, schema.HoldsNodes key → SameSpan (object.get? key) (other.get? key)
  data : schema.SameData (object.get? "data") (other.get? "data")

theorem not_holdsNodes_of_base {schema : Schema} (flawless : schema.flaw? = none) {key : String}
    (base : isBaseKey key = true) (other : key ≠ "children") : ¬schema.HoldsNodes key := by
  rintro (same | ⟨spec, declared, -⟩)
  · exact other same
  · rw [declared_not_base flawless declared] at base
    cases base

theorem HoldsNodes.ne {schema : Schema} {key : String} (nodes : schema.HoldsNodes key)
    (flawless : schema.flaw? = none) {other : String} (base : isBaseKey other = true)
    (notChildren : other ≠ "children") : other ≠ key :=
  fun same => not_holdsNodes_of_base flawless base notChildren (same ▸ nodes)

namespace SameForm

variable {schema : Schema} {object other : KeyMap Json}

theorem contains_eq (form : schema.SameForm object other) (key : String) :
    object.contains key = other.contains key := by
  unfold KeyMap.contains
  by_cases data : key = "data"
  · have same := form.data
    rw [data]
    generalize object.get? "data" = found, other.get? "data" = instead at same ⊢
    cases same <;> rfl
  · by_cases nodes : schema.HoldsNodes key
    · have same := form.nodes key nodes
      generalize object.get? key = found, other.get? key = instead at same ⊢
      cases same <;> rfl
    · rw [form.plain key data nodes]

theorem length_itemsAt (form : schema.SameForm object other) {key : String}
    (nodes : schema.HoldsNodes key) :
    (itemsAt object key).length = (itemsAt other key).length := by
  have same := form.nodes key nodes
  unfold itemsAt
  generalize object.get? key = found, other.get? key = instead at same ⊢
  cases same with
  | same => rfl
  | arrays length => exact length

theorem type_eq (form : schema.SameForm object other) (flawless : schema.flaw? = none) :
    object.get? "type" = other.get? "type" :=
  form.plain _ (by decide) (not_holdsNodes_of_base flawless (by decide) (by decide))

/-! ### Setting one key -/

theorem insert_array (flawless : schema.flaw? = none) (object : KeyMap Json) {key : String}
    (nodes : schema.HoldsNodes key) {items others : List Json}
    (length : items.length = others.length) :
    schema.SameForm (object.insert key (.array items)) (object.insert key (.array others)) where
  plain k _ notNodes := by
    have other : k ≠ key := fun same => notNodes (same ▸ nodes)
    rw [KeyMap.get?_insert, KeyMap.get?_insert, if_neg other, if_neg other]
  nodes k _ := by
    rw [KeyMap.get?_insert, KeyMap.get?_insert]
    split
    · exact .arrays length
    · exact .same _
  data := by
    have other : "data" ≠ key := nodes.ne flawless (by decide) (by decide)
    rw [KeyMap.get?_insert, KeyMap.get?_insert, if_neg other, if_neg other]
    exact .same _

theorem insert_data (flawless : schema.flaw? = none) (object : KeyMap Json) {value other : Json}
    (same : schema.SameData (some value) (some other)) :
    schema.SameForm (object.insert "data" value) (object.insert "data" other) where
  plain k notData _ := by
    rw [KeyMap.get?_insert, KeyMap.get?_insert, if_neg notData, if_neg notData]
  nodes k nodes := by
    have notData : k ≠ "data" := (nodes.ne flawless (by decide) (by decide)).symm
    rw [KeyMap.get?_insert, KeyMap.get?_insert, if_neg notData, if_neg notData]
    exact .same _
  data := by
    rw [KeyMap.get?_insert_self, KeyMap.get?_insert_self]
    exact same

end SameForm
end Schema

namespace Validator

variable {validator : Validator} {schema : Schema} {object other : KeyMap Json}

/-! ## The rules of one object -/

theorem contentBreach?_eq (form : schema.SameForm object other) :
    contentBreach? schema object = contentBreach? schema other := by
  have children := form.nodes "children" (.inl rfl)
  unfold contentBreach?
  rw [form.contains_eq]
  generalize object.get? "children" = found, other.get? "children" = instead at children ⊢
  cases children with
  | same => rfl
  | arrays => cases schema.contentClass <;> cases other.contains "value" <;> rfl

theorem valueBreach?_eq (form : schema.SameForm object other) (flawless : schema.flaw? = none) :
    valueBreach? schema object = valueBreach? schema other := by
  have value : object.get? "value" = other.get? "value" :=
    form.plain _ (by decide) (Schema.not_holdsNodes_of_base flawless (by decide) (by decide))
  rw [valueBreach?, valueBreach?, value]

theorem undeclaredKeys_eq (form : schema.SameForm object other) :
    undeclaredKeys schema object = undeclaredKeys schema other := by
  rw [undeclaredKeys, undeclaredKeys, KeyMap.keys_congr form.contains_eq]

theorem dataBreach?_eq (form : schema.SameForm object other) :
    dataBreach? object = dataBreach? other := by
  have data := form.data
  unfold dataBreach?
  generalize object.get? "data" = found, other.get? "data" = instead at data ⊢
  cases data with
  | same => rfl
  | @objects value other _ _ read read' =>
    cases value <;> cases read
    cases other <;> cases read'
    rfl

/-- Of `data`, only the keys of promoted fields are read. -/
theorem legacyKey?_eq (validator : Validator) (form : schema.SameForm object other)
    {field : String} {spec : FieldSpec} (declared : schema.fields.get? field = some spec) :
    validator.legacyKey? schema spec object = validator.legacyKey? schema spec other := by
  have data := form.data
  unfold legacyKey?
  generalize object.get? "data" = found, other.get? "data" = instead at data ⊢
  cases data with
  | same => rfl
  | objects read read' keys =>
    cases promoted : spec.promotedFrom with
    | none => rfl
    | some origin => simp [read, read', keys field spec origin declared promoted]

/-! ## One object -/

variable {α : Type} {check : Path → Json → Verdict} {path : Path}

theorem checkField_eq_of_same {field : String} {spec : FieldSpec}
    (same : object.get? field = other.get? field)
    (legacy : validator.legacyKey? schema spec object = validator.legacyKey? schema spec other) :
    validator.checkField check path schema object field spec =
      validator.checkField check path schema other field spec := by
  rw [checkField, checkField, same, legacy]

/-- An array in a list of nodes has the findings of its items. -/
theorem read_checkField_of_array (view : Findings.View α) {field : String} {spec : FieldSpec}
    (kind : spec.kind = .nodeList) {items : List Json}
    (array : object.get? field = some (.array items)) :
    view.read (validator.checkField check path schema object field spec) =
      ((itemsAt object field).mapIdx fun place item =>
        view.read (check (path.element field place) item).findings).flatten := by
  rw [← view.read_join_mapIdx, checkField, array, kind]
  simp [itemsAt, array, FieldKind.fits]

/-- The checks of a declared field of two objects of one form differ in its list of nodes only. -/
theorem read_checkField_congr (view : Findings.View α) (form : schema.SameForm object other)
    (flawless : schema.flaw? = none) {field : String} {spec : FieldSpec}
    (declared : schema.fields.get? field = some spec)
    (below : spec.kind = .nodeList → ∀ place item instead,
      (itemsAt object field)[place]? = some item → (itemsAt other field)[place]? = some instead →
      view.read (check (path.element field place) item).findings =
        view.read (check (path.element field place) instead).findings) :
    view.read (validator.checkField check path schema object field spec) =
      view.read (validator.checkField check path schema other field spec) := by
  have legacy := legacyKey?_eq validator form declared
  have notBase := Schema.declared_not_base flawless declared
  have notKey : ∀ key, isBaseKey key = true → field ≠ key := by
    rintro key base rfl
    rw [notBase] at base
    cases base
  by_cases kind : spec.kind = .nodeList
  · have nodes : schema.HoldsNodes field := .inr ⟨spec, declared, kind⟩
    have span := form.nodes field nodes
    generalize found : object.get? field = value, found' : other.get? field = value' at span
    cases span with
    | same => rw [checkField_eq_of_same (found.trans found'.symm) legacy]
    | arrays =>
      rw [read_checkField_of_array view kind found, read_checkField_of_array view kind found',
        mapIdx_congr (form.length_itemsAt nodes) (below kind)]
  · have plain : ¬schema.HoldsNodes field := by
      rintro (same | ⟨known, found, list⟩)
      · exact notKey _ (by decide) same
      · obtain rfl := Option.some.inj (declared.symm.trans found)
        exact kind list
    rw [checkField_eq_of_same (form.plain field (notKey _ (by decide)) plain) legacy]

/-- The checks of two objects of one form, apart from their children, differ in what they find in
lists of nodes only. -/
theorem read_checkFields_congr (view : Findings.View α) (form : schema.SameForm object other)
    (flawless : schema.flaw? = none)
    (elements : ∀ field spec, schema.fields.get? field = some spec → spec.kind = .nodeList →
      ∀ place item instead, (itemsAt object field)[place]? = some item →
        (itemsAt other field)[place]? = some instead →
        view.read (check (path.element field place) item).findings =
          view.read (check (path.element field place) instead).findings) :
    view.read (validator.checkFields check path schema object) =
      view.read (validator.checkFields check path schema other) := by
  simp only [checkFields, view.append, view.join, List.flatMap_map, contentBreach?_eq form,
    valueBreach?_eq form flawless, undeclaredKeys_eq form, dataBreach?_eq form]
  refine congrArg (· ++ _) (congrArg (_ ++ ·) (List.flatMap_congr ?_))
  rintro ⟨field, spec⟩ mem
  have declared := KeyMap.mem_entries_iff.1 mem
  exact read_checkField_congr view form flawless declared (elements field spec declared)

theorem findings_checkNode (validator : Validator) (check : Path → Json → Verdict) (path : Path)
    (schema : Schema) (object : KeyMap Json) :
    (validator.checkNode check path schema object).findings =
      validator.checkFields check path schema object ++
        .join ((itemsAt object "children").mapIdx fun place child =>
          (validator.checkChild check path schema place child).findings) := by
  simp [checkNode, itemsAt, List.mapIdx_eq_zipIdx_map, Function.comp_def]

/-- The checks of two objects of one form differ in what they find below the objects only. -/
theorem read_checkNode_congr (view : Findings.View α) (form : schema.SameForm object other)
    (flawless : schema.flaw? = none)
    (elements : ∀ field spec, schema.fields.get? field = some spec → spec.kind = .nodeList →
      ∀ place item instead, (itemsAt object field)[place]? = some item →
        (itemsAt other field)[place]? = some instead →
        view.read (check (path.element field place) item).findings =
          view.read (check (path.element field place) instead).findings)
    (children : ∀ place child instead, (itemsAt object "children")[place]? = some child →
      (itemsAt other "children")[place]? = some instead →
      view.read (validator.checkChild check path schema place child).findings =
        view.read (validator.checkChild check path schema place instead).findings) :
    view.read (validator.checkNode check path schema object).findings =
      view.read (validator.checkNode check path schema other).findings := by
  have length := form.length_itemsAt (.inl rfl)
  rw [findings_checkNode, findings_checkNode, view.append, view.append, view.read_join_mapIdx,
    view.read_join_mapIdx, read_checkFields_congr view form flawless elements,
    mapIdx_congr length children]

/-! ## Children -/

/-- What stands under `type` in a value. -/
def typeAt? (value : Json) : Option Json := value.map?.bind (·.get? "type")

theorem typeAt?_of_read {value : Json} (read : value.map? = some object) :
    typeAt? value = object.get? "type" := by
  rw [typeAt?, read, Option.bind_some]

/-- Of a child, its container reads the type only. -/
theorem childBreach?_congr {parent : Schema} {place : Nat} {child instead : Json}
    (same : typeAt? child = typeAt? instead) :
    validator.childBreach? parent place child = validator.childBreach? parent place instead := by
  obtain ⟨refusal, reads⟩ : ∃ refusal, ∀ value,
      validator.childBreach? parent place value = (typeAt? value).bind refusal :=
    ⟨_, fun value => by rw [typeAt?, Option.bind_assoc]; rfl⟩
  rw [reads, reads, same]

theorem read_checkChild_congr (view : Findings.View α) {parent : Schema} {place : Nat}
    {child instead : Json} (same : typeAt? child = typeAt? instead)
    (below : view.read (check (path.child place) child).findings =
      view.read (check (path.child place) instead).findings) :
    view.read (validator.checkChild check path parent place child).findings =
      view.read (validator.checkChild check path parent place instead).findings := by
  simp only [checkChild, view.append, childBreach?_congr same, below]

end Validator
end DocTree
