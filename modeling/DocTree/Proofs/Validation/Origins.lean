import DocTree.Proofs.Validation.Report

/-!
# Where violations come from

Every violation that a check reports was raised at a checked site, by a breach that the value there
commits, and says so in its path, its words and its type.

## Main definitions

* `Validator.Lacks` — an object lacks a required field, and `data` does not make up for it.
* `Validator.Commits` — the breaches that an object of a type commits, apart from what is below it.
* `Validator.Raised` — the violations that are raised at a site.
* `Schema.Fits` — all that an object has is as its type says.

## Main statements

* `Validator.Commits.lacks` — an object that fits its type lacks a required field at worst.
* `Validator.mem_violations_checkNode` — what the check of one object reports.
* `Validator.Raised.of_mem_violations` — a violation of a document was raised at a checked site.
-/

namespace DocTree

/-- All that an object has is as a type says. Fields that the type requires may be missing. -/
structure Schema.Fits (schema : Schema) (object : KeyMap Json) : Prop where
  content : schema.contentClass.fits object = true
  value : schema.contentClass = .leaf → ∀ value, object.get? "value" = some value →
    schema.kindOfValue.fits value = true
  fields : ∀ field spec value, schema.fields.get? field = some spec →
    object.get? field = some value → spec.kind.fits value = true
  declared : ∀ key value, object.get? key = some value → isBaseKey key = false →
    ∃ spec, schema.fields.get? key = some spec
  data : ∀ value, object.get? "data" = some value → ∃ data, value.map? = some data

namespace Validator

variable {validator : Validator}

/-! ## Definitions -/

/-- An object lacks a field that its type requires, and `data` does not make up for it. -/
structure Lacks (validator : Validator) (schema : Schema) (object : KeyMap Json) (field : String)
    (spec : FieldSpec) : Prop where
  declared : schema.fields.get? field = some spec
  required : spec.required = true
  absent : object.get? field = none
  uncovered : validator.coversLegacy schema spec (dataOf? object) = false

/-- An object of a type commits a breach, apart from the values below it. -/
inductive Commits (validator : Validator) (schema : Schema) (object : KeyMap Json) : Breach → Prop
  | content {breach : Breach} : contentBreach? schema object = some breach →
      Commits validator schema object breach
  | value {breach : Breach} : valueBreach? schema object = some breach →
      Commits validator schema object breach
  | field {field : String} {spec : FieldSpec} {value : Json} :
      schema.fields.get? field = some spec → object.get? field = some value →
      spec.kind.fits value = false →
      Commits validator schema object (.fieldOfOtherKind field spec.kind value)
  | absent {field : String} {spec : FieldSpec} : validator.Lacks schema object field spec →
      Commits validator schema object (.fieldAbsent field)
  | undeclared {key : String} : key ∈ undeclaredKeys schema object →
      Commits validator schema object (.fieldUndeclared key schema.name)
  | data {breach : Breach} : dataBreach? object = some breach →
      Commits validator schema object breach

/-- A violation is raised at a site: the value is no object, lies too deep, has no registered type,
or commits a breach of its type, or the container that it is a child of does not accept it. -/
inductive Raised (validator : Validator) : Site → Violation → Prop
  | notNode {site : Site} : site.value.map? = none →
      Raised validator site ((Breach.notNode site.value).violation site.path none)
  | tooDeep {site : Site} {object : KeyMap Json} : site.value.map? = some object →
      validator.settings.maxDepth ≤ site.depth →
      Raised validator site ((Breach.tooDeep validator.settings.maxDepth).violation site.path
        ((object.get? "type").bind Json.string?))
  | untyped {site : Site} {object : KeyMap Json} {breach : Breach} {name : Option String} :
      site.value.map? = some object → site.depth < validator.settings.maxDepth →
      validator.typeOf object = .error (breach, name) →
      Raised validator site (breach.violation site.path name)
  | breach {site : Site} {schema : Schema} {object : KeyMap Json} {breach : Breach} :
      validator.Opens site schema object → validator.Commits schema object breach →
      Raised validator site (breach.violation site.path (some schema.name))
  | refused {site : Site} {parent : Schema} {place : Nat} {value : Json} {breach : Breach}
      {name : String} : parent.contentClass = .container →
      validator.childBreach? parent place value = some (breach, name) →
      Raised validator (site.child parent place value)
        (breach.violation (site.child parent place value).path (some name))

/-! ## Breaches of an object that fits its type -/

section fits

variable {schema : Schema} {object : KeyMap Json} {breach : Breach}

theorem kind_mem_of_eq_some {found : Option Breach} {kinds : List ViolationKind}
    (kind : found.toList.map Breach.kind = kinds) (h : found = some breach) :
    breach.kind ∈ kinds := by
  rw [← kind, h]
  exact List.mem_singleton_self _

/-- The one breach that an object may commit when all it has is as its type says is that it lacks a
required field. -/
theorem Commits.lacks (commits : validator.Commits schema object breach)
    (fits : schema.Fits object) :
    ∃ field spec, breach = .fieldAbsent field ∧ validator.Lacks schema object field spec := by
  cases commits with
  | content found =>
    have kind := kind_mem_of_eq_some (kinds_contentBreach schema object) found
    rw [if_pos fits.content] at kind
    cases kind
  | value found =>
    have kind := kind_mem_of_eq_some (kinds_valueBreach schema object) found
    cases present : object.get? "value" with
    | none => simp [present] at kind
    | some value =>
      by_cases leaf : schema.contentClass = .leaf
      · simp [present, fits.value leaf value present] at kind
      · simp [leaf] at kind
  | field declared found other =>
    rw [fits.fields _ _ _ declared found] at other
    cases other
  | absent lacks => exact ⟨_, _, rfl, lacks⟩
  | @undeclared key found =>
    obtain ⟨mem, foreign⟩ := List.mem_filter.1 found
    simp only [Bool.and_eq_true, Bool.not_eq_true', KeyMap.contains_eq_false_iff] at foreign
    obtain ⟨value, present⟩ := KeyMap.mem_keys_iff.1 mem
    obtain ⟨spec, declared⟩ := fits.declared key value present foreign.1
    rw [foreign.2] at declared
    cases declared
  | data found =>
    have kind := kind_mem_of_eq_some (kinds_dataBreach object) found
    cases present : object.get? "data" with
    | none => simp [present] at kind
    | some value =>
      obtain ⟨data, read⟩ := fits.data value present
      simp [present, read] at kind

end fits

/-! ## One object -/

variable {check : Path → Json → Verdict} {path : Path} {schema : Schema} {object : KeyMap Json}
  {violation : Violation}

theorem mem_violations_breached {typeName : String} {breaches : List Breach} :
    violation ∈ (breached path typeName breaches).violations ↔
      ∃ breach ∈ breaches, violation = breach.violation path (some typeName) := by
  simp [breached, eq_comm]

/-- What a declared field reports is a breach, or was found in its list of nodes. -/
theorem mem_violations_checkField {field : String} {spec : FieldSpec}
    (declared : schema.fields.get? field = some spec)
    (h : violation ∈ (validator.checkField check path schema object field spec).violations) :
    (∃ breach, validator.Commits schema object breach ∧
      violation = breach.violation path (some schema.name)) ∨
    ∃ place item, (listItems spec object field)[place]? = some item ∧
      violation ∈ (check (path.element field place) item).findings.violations := by
  unfold checkField at h
  split at h
  · rename_i value found
    split at h
    · rename_i other
      obtain ⟨breach, mem, rfl⟩ := mem_violations_breached.1 h
      obtain rfl := List.mem_singleton.1 mem
      exact .inl ⟨_, .field declared found (by simpa using other), rfl⟩
    · split at h
      · rename_i kind
        rw [Findings.violations_join] at h
        obtain ⟨findings, mem, h⟩ := List.mem_flatMap.1 h
        obtain ⟨place, bound, rfl⟩ := List.mem_mapIdx.1 mem
        refine .inr ⟨place, _, ?_, h⟩
        simp [listItems, kind, found]
      · cases h
  · rename_i absent
    split at h
    · rename_i required
      split at h
      · cases h
      · rename_i uncovered
        obtain ⟨breach, mem, rfl⟩ := mem_violations_breached.1 h
        obtain rfl := List.mem_singleton.1 mem
        refine .inl ⟨_, .absent ⟨declared, required, absent, ?_⟩, rfl⟩
        rw [← isSome_legacyKey, uncovered]
        rfl
    · cases h

/-- What an object reports apart from its children is a breach, or was found in one of its lists of
nodes. -/
theorem mem_violations_checkFields
    (h : violation ∈ (validator.checkFields check path schema object).violations) :
    (∃ breach, validator.Commits schema object breach ∧
      violation = breach.violation path (some schema.name)) ∨
    ∃ field spec place item, schema.fields.get? field = some spec ∧
      (listItems spec object field)[place]? = some item ∧
      violation ∈ (check (path.element field place) item).findings.violations := by
  simp only [checkFields, Findings.violations_append, Findings.violations_join, List.mem_append,
    mem_violations_breached, List.mem_flatMap, List.mem_map, Option.mem_toList] at h
  rcases h with (⟨breach, content | value, same⟩ | ⟨_, ⟨⟨field, spec⟩, mem, rfl⟩, h⟩) |
    ⟨breach, ⟨key, undeclared, rfl⟩ | data, same⟩
  · exact .inl ⟨breach, .content content, same⟩
  · exact .inl ⟨breach, .value value, same⟩
  · have declared := KeyMap.mem_entries_iff.1 mem
    rcases mem_violations_checkField declared h with own | ⟨place, item, found, h⟩
    · exact .inl own
    · exact .inr ⟨field, spec, place, item, declared, found, h⟩
  · exact .inl ⟨_, .undeclared undeclared, same⟩
  · exact .inl ⟨breach, .data data, same⟩

/-- What a child reports is that its container does not accept it, or was found in it. -/
theorem mem_violations_checkChild {site : Site} {place : Nat} {child : Json}
    (h : violation ∈
      (validator.checkChild check site.path schema place child).findings.violations) :
    validator.Raised (site.child schema place child) violation ∨
      violation ∈ (check (site.path.child place) child).findings.violations := by
  unfold checkChild at h
  rcases List.mem_append.1 h with refusal | inside
  · obtain ⟨⟨breach, name⟩, refused, rfl⟩ := List.mem_map.1 refusal
    rw [Option.mem_toList] at refused
    split at refused
    · rename_i container
      exact .inl (.refused container refused)
    · cases refused
  · exact .inr inside

/-- What an object reports is a breach, or was raised or found right below it. -/
theorem mem_violations_checkNode {site : Site} (opens : validator.Opens site schema object)
    (h : violation ∈
      (validator.checkNode check site.path schema object).findings.violations) :
    validator.Raised site violation ∨ ∃ next, validator.Below site next ∧
      (validator.Raised next violation ∨
        violation ∈ (check next.path next.value).findings.violations) := by
  simp only [checkNode, Findings.violations_append, Findings.violations_join, List.mem_append,
    List.mem_flatMap, List.mem_map] at h
  rcases h with h | ⟨_, ⟨verdict, mem, rfl⟩, h⟩
  · rcases mem_violations_checkFields h with ⟨breach, commits, rfl⟩ |
      ⟨field, spec, place, item, declared, found, h⟩
    · exact .inl (.breach opens commits)
    · obtain ⟨kind, items, array, found⟩ := getElem?_listItems_iff.1 found
      exact .inr ⟨_, .element opens declared kind array found, .inr h⟩
  · obtain ⟨place, bound, rfl⟩ := List.mem_mapIdx.1 mem
    obtain ⟨items, array, found⟩ :=
      getElem?_childItems_iff.1 (List.getElem?_eq_getElem bound)
    exact .inr ⟨_, .child opens array found, mem_violations_checkChild h⟩

/-! ## Documents -/

/-- A violation that a check down to the depth limit reports was raised at a site from there on. -/
theorem Raised.of_mem_check {levels : Nat} {site : Site}
    (deep : levels + site.depth = validator.settings.maxDepth)
    (h : violation ∈ (validator.check levels site.path site.value).findings.violations) :
    ∃ found, validator.Checked site found ∧ validator.Raised found violation := by
  -- Levels and depth add up to the limit throughout, so sites are open as long as levels are left.
  induction levels generalizing site with
  | zero =>
    refine ⟨site, .start, ?_⟩
    cases read : site.value.map? with
    | none =>
      rw [check, read] at h
      obtain rfl := List.mem_singleton.1 h
      exact .notNode read
    | some object =>
      rw [check, read] at h
      obtain rfl := List.mem_singleton.1 h
      exact .tooDeep read (by omega)
  | succ levels ih =>
    have shallow : site.depth < validator.settings.maxDepth := by omega
    cases read : site.value.map? with
    | none =>
      rw [check, read] at h
      obtain rfl := List.mem_singleton.1 h
      exact ⟨site, .start, .notNode read⟩
    | some object =>
      cases known : validator.typeOf object with
      | error found =>
        rw [check, read] at h
        simp only [known] at h
        obtain rfl := List.mem_singleton.1 h
        exact ⟨site, .start, .untyped read shallow known⟩
      | ok schema =>
        have named := typeOf_eq_ok_iff.1 known
        have opens : validator.Opens site schema object := ⟨shallow, read, named⟩
        rw [check_succ read named] at h
        rcases mem_violations_checkNode opens h with here | ⟨next, below, there | h⟩
        · exact ⟨site, .start, here⟩
        · exact ⟨next, .step .start below, there⟩
        · have depth := below.depth
          obtain ⟨found, checked, raised⟩ := ih (by omega) h
          exact ⟨found, (Checked.start.step below).trans checked, raised⟩

/-- A violation of a document was raised at a checked site. -/
theorem Raised.of_mem_violations {document : Json}
    (h : violation ∈ validator.violations document) :
    ∃ site, validator.Checked (Site.root document) site ∧ validator.Raised site violation := by
  rw [violations_eq] at h
  have deep : validator.settings.maxDepth + (Site.root document).depth =
      validator.settings.maxDepth := Nat.add_zero _
  exact Raised.of_mem_check deep h

end Validator
end DocTree
