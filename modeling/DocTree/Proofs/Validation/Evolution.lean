import DocTree.Proofs.Registry.History
import DocTree.Proofs.Validation.Acceptance
import DocTree.Proofs.Validation.Origins

/-!
# Documents under an evolving registry

When a registry evolves, the values that are checked in an accepted document stay the same, and so
do all answers about them but one: a field that the evolved type requires may be missing.

## Main definitions

* `Site.Matches` — two sites of one value, in the checks by two registries.
* `Validator.EvolvesTo` — a validator whose registry has evolved.
* `Validator.Occurs` — an object is checked as a node of a type.

## Main statements

* `Validator.EvolvesTo.occurs_iff` — in an accepted document the same objects are checked.
* `Validator.EvolvesTo.lacks_of_mem_violations` — all that an accepted document can be charged with.
* `Validator.accepts_same_tree` — without a charge it is accepted as the same tree.
-/

namespace DocTree

/-- Two sites of one value, at one place, where containers that accept the same children, or none,
have to accept it. -/
structure Site.Matches (site other : Site) : Prop where
  path : other.path = site.path
  depth : other.depth = site.depth
  value : other.value = site.value
  accepts : other.parent.map Schema.childClass = site.parent.map Schema.childClass

theorem Site.Matches.child {site other : Site} {schema next : Schema} (h : site.Matches other)
    (evolves : schema.EvolvesTo next) (place : Nat) (value : Json) :
    (site.child schema place value).Matches (other.child next place value) where
  path := by simp only [Site.child, h.path]
  depth := by simp only [Site.child, h.depth]
  value := rfl
  accepts := by
    simp only [Site.child, evolves.contentClass]
    split <;> simp [evolves.childClass]

theorem Site.Matches.element {site other : Site} (h : site.Matches other) (field : String)
    (place : Nat) (value : Json) :
    (site.element field place value).Matches (other.element field place value) where
  path := by simp only [Site.element, h.path]
  depth := by simp only [Site.element, h.depth]
  value := rfl
  accepts := rfl

namespace Validator

variable {validator later : Validator} {schema next : Schema} {object : KeyMap Json}

/-! ## Definitions -/

/-- The later validator has the same settings, and a registry that has evolved. -/
structure EvolvesTo (validator later : Validator) : Prop where
  settings : later.settings = validator.settings
  registry : validator.registry.EvolvesTo later.registry

/-- An object is checked in a document as a node of a type. -/
def Occurs (validator : Validator) (document : Json) (name : String) (object : KeyMap Json) :
    Prop :=
  ∃ site, validator.Checked (Site.root document) site ∧ site.value.map? = some object ∧
    object.get? "type" = some (.string name)

/-! ## Accepted documents -/

theorem violations_eq_nil_of_accepted {document : Json} {tree : Node}
    (accepted : (validator.validate document).result = .ok tree) :
    validator.violations document = [] := by
  rw [violations, accepted]

theorem failuresAt_eq_nil {document : Json} (clean : validator.violations document = [])
    {site : Site} (checked : validator.Checked (Site.root document) site) :
    validator.failuresAt site = [] := by
  apply List.eq_nil_iff_forall_not_mem.2
  intro kind mem
  have reported := mem_violations_iff.2 ⟨site, checked, rfl, mem⟩
  rw [clean] at reported
  cases reported

/-- At a site without failures there is an object that keeps all rules of its type, and that its
container accepts. -/
theorem admits_of_failuresAt {site : Site} (clean : validator.failuresAt site = []) :
    validator.refusals site.parent site.value = [] ∧ ∃ schema object,
      validator.Opens site schema object ∧ validator.Admits schema object := by
  obtain ⟨accepted, clean⟩ := List.append_eq_nil_iff.1 clean
  refine ⟨accepted, ?_⟩
  cases read : site.value.map? with
  | none => simp [read] at clean
  | some object =>
    by_cases shallow : site.depth < validator.settings.maxDepth
    · cases known : validator.schemaOf? object with
      | none => simp [read, shallow, known] at clean
      | some schema =>
        simp only [read, if_pos shallow, known] at clean
        exact ⟨schema, object, ⟨shallow, read, known⟩, failures_eq_nil_iff.1 clean⟩
    · simp [read, shallow] at clean

/-! ## One object -/

theorem coversLegacy_congr (same : later.settings = validator.settings) :
    later.coversLegacy = validator.coversLegacy := by
  funext schema spec data
  rw [coversLegacy, coversLegacy, same]

theorem EvolvesTo.schemaOf? (h : validator.EvolvesTo later)
    (known : validator.schemaOf? object = some schema) :
    ∃ next, later.schemaOf? object = some next ∧ schema.EvolvesTo next := by
  obtain ⟨name, named, known⟩ := Option.bind_eq_some_iff.1 known
  obtain ⟨next, found, evolves⟩ := h.registry name schema known
  exact ⟨next, Option.bind_eq_some_iff.2 ⟨name, named, found⟩, evolves⟩

/-- A field that an object has and its evolved type declares was declared before, and is of the
same kind. -/
theorem Admits.declared_before (admits : validator.Admits schema object)
    (evolves : schema.EvolvesTo next) (flawless : next.flaw? = none) {field : String}
    {spec : FieldSpec} (declared : next.fields.get? field = some spec) {value : Json}
    (found : object.get? field = some value) :
    ∃ earlier, schema.fields.get? field = some earlier ∧ spec.kind = earlier.kind := by
  have notBase := Schema.declared_not_base flawless declared
  obtain ⟨earlier, known⟩ := admits.declared field value found notBase
  obtain ⟨same, declared', kept⟩ := evolves.fields field earlier known
  obtain rfl : same = spec := Option.some.inj (declared'.symm.trans declared)
  exact ⟨earlier, known, kept.kind⟩

/-- An object that kept all rules of a type fits what the type has evolved to. -/
theorem Admits.fits (admits : validator.Admits schema object) (evolves : schema.EvolvesTo next)
    (flawless : next.flaw? = none) : next.Fits object where
  content := evolves.contentClass ▸ admits.content
  value := evolves.contentClass ▸ evolves.kindOfValue ▸ admits.value
  fields field spec value declared found := by
    obtain ⟨earlier, known, kind⟩ := admits.declared_before evolves flawless declared found
    exact kind ▸ admits.fields field earlier value known found
  declared key value found notBase := by
    obtain ⟨earlier, known⟩ := admits.declared key value found notBase
    obtain ⟨later, declared, -⟩ := evolves.fields key earlier known
    exact ⟨later, declared⟩
  data := admits.data

/-! ## Sites -/

theorem EvolvesTo.opens (h : validator.EvolvesTo later) {site other : Site}
    (same : site.Matches other) (opens : validator.Opens site schema object) :
    ∃ next, later.Opens other next object ∧ schema.EvolvesTo next := by
  obtain ⟨next, known, evolves⟩ := h.schemaOf? opens.known
  have shallow : other.depth < later.settings.maxDepth := by
    rw [same.depth, h.settings]
    exact opens.shallow
  exact ⟨next, ⟨shallow, same.value ▸ opens.read, known⟩, evolves⟩

/-- An object with a type in the evolved registry had a type before; without failures there, it kept
the rules of that type. -/
theorem EvolvesTo.opened (h : validator.EvolvesTo later) (sound : later.registry.Sound)
    {site other : Site} (same : site.Matches other) (clean : validator.failuresAt site = [])
    (opens : later.Opens other next object) :
    next.flaw? = none ∧ ∃ schema, validator.Opens site schema object ∧
      validator.Admits schema object ∧ schema.EvolvesTo next := by
  obtain ⟨-, schema, found, before, admits⟩ := admits_of_failuresAt clean
  obtain ⟨evolved, after, evolves⟩ := h.opens same before
  obtain ⟨rfl, rfl⟩ := opens.unique after
  exact ⟨(schemaOf?_eq_some sound opens.known).2.2, schema, before, admits, evolves⟩

/-- What is checked in an accepted document after the registry has evolved was checked before. -/
theorem EvolvesTo.matching_of_checked (h : validator.EvolvesTo later)
    (sound : later.registry.Sound) {document : Json} (clean : validator.violations document = [])
    {other : Site} (checked : later.Checked (Site.root document) other) :
    ∃ site, validator.Checked (Site.root document) site ∧ site.Matches other := by
  induction checked with
  | start => exact ⟨_, .start, rfl, rfl, rfl, rfl⟩
  | step _ below ih =>
    obtain ⟨site, checked, same⟩ := ih
    have clean := failuresAt_eq_nil clean checked
    cases below with
    | child opens array found =>
      obtain ⟨-, schema, before, -, evolves⟩ := h.opened sound same clean opens
      exact ⟨_, checked.step (.child before array found), same.child evolves _ _⟩
    | element opens declared kind array found =>
      obtain ⟨flawless, schema, before, admits, evolves⟩ := h.opened sound same clean opens
      obtain ⟨earlier, known, kept⟩ := admits.declared_before evolves flawless declared array
      have list := kept.symm.trans kind
      exact ⟨_, checked.step (.element before known list array found), same.element _ _ _⟩

/-- What was checked in a document is checked after the registry has evolved. -/
theorem EvolvesTo.checked_of_matching (h : validator.EvolvesTo later) {document : Json}
    {site : Site} (checked : validator.Checked (Site.root document) site) :
    ∃ other, later.Checked (Site.root document) other ∧ site.Matches other := by
  induction checked with
  | start => exact ⟨_, .start, rfl, rfl, rfl, rfl⟩
  | step _ below ih =>
    obtain ⟨other, checked, same⟩ := ih
    cases below with
    | child opens array found =>
      obtain ⟨next, after, evolves⟩ := h.opens same opens
      exact ⟨_, checked.step (.child after array found), same.child evolves _ _⟩
    | element opens declared kind array found =>
      obtain ⟨next, after, evolves⟩ := h.opens same opens
      obtain ⟨spec, known, kept⟩ := evolves.fields _ _ declared
      have list := kept.kind.trans kind
      exact ⟨_, checked.step (.element after known list array found), same.element _ _ _⟩

/-- In an accepted document the same objects are checked after the registry has evolved. -/
theorem EvolvesTo.occurs_iff (h : validator.EvolvesTo later) (sound : later.registry.Sound)
    {document : Json} (clean : validator.violations document = []) {name : String} :
    later.Occurs document name object ↔ validator.Occurs document name object := by
  constructor
  · rintro ⟨other, checked, read, named⟩
    obtain ⟨site, checked, same⟩ := h.matching_of_checked sound clean checked
    exact ⟨site, checked, same.value ▸ read, named⟩
  · rintro ⟨site, checked, read, named⟩
    obtain ⟨other, checked, same⟩ := h.checked_of_matching checked
    exact ⟨other, checked, same.value ▸ read, named⟩

/-- A container that accepted a value of a known type accepts it still. -/
theorem EvolvesTo.refusals_eq_nil (h : validator.EvolvesTo later) {site other : Site}
    (same : site.Matches other) (clean : validator.failuresAt site = []) :
    later.refusals other.parent other.value = [] := by
  obtain ⟨accepted, schema, object, opens, -⟩ := admits_of_failuresAt clean
  have container := same.accepts
  cases holder : other.parent with
  | none => exact refusals_none _
  | some parent =>
    cases earlierHolder : site.parent with
    | none => simp [holder, earlierHolder] at container
    | some earlier =>
      rw [earlierHolder, refusals_eq_nil_iff] at accepted
      rw [holder, earlierHolder] at container
      have childClass : parent.childClass = earlier.childClass := Option.some.inj container
      rw [refusals_eq_nil_iff]
      intro found read next known
      obtain ⟨evolved, after, evolves⟩ := h.opens same opens
      obtain ⟨rfl, rfl⟩ := after.unique ⟨after.shallow, read, known⟩
      rw [childClass, evolves.category]
      exact accepted found opens.read schema opens.known

/-! ## Documents -/

/-- All that an accepted document can be charged with after the registry has evolved is that an
object of a type whose schema has changed lacks a field that is required. -/
theorem EvolvesTo.lacks_of_mem_violations (h : validator.EvolvesTo later)
    (sound : later.registry.Sound) {document : Json} (clean : validator.violations document = [])
    {violation : Violation} (mem : violation ∈ later.violations document) :
    ∃ site schema next object field spec, later.Checked (Site.root document) site ∧
      later.Opens site next object ∧ validator.schemaOf? object = some schema ∧ next ≠ schema ∧
      later.Lacks next object field spec ∧
      violation = (Breach.fieldAbsent field).violation site.path (some next.name) := by
  obtain ⟨other, checked, raised⟩ := Raised.of_mem_violations mem
  obtain ⟨site, before, same⟩ := h.matching_of_checked sound clean checked
  have clean := failuresAt_eq_nil clean before
  obtain ⟨-, schema, object, opens, -⟩ := admits_of_failuresAt clean
  obtain ⟨next, after, -⟩ := h.opens same opens
  cases raised with
  | notNode read =>
    rw [after.read] at read
    cases read
  | tooDeep _ deep => exact absurd after.shallow (Nat.not_lt.2 deep)
  | untyped read _ untyped =>
    obtain rfl := Option.some.inj (after.read.symm.trans read)
    have known := after.known
    rw [(typeOf_eq_error untyped).1] at known
    cases known
  | @breach _ next object breach opens commits =>
    obtain ⟨flawless, schema, opened, admits, evolves⟩ := h.opened sound same clean opens
    obtain ⟨field, spec, rfl, lacks⟩ := commits.lacks (admits.fits evolves flawless)
    refine ⟨other, schema, next, object, field, spec, checked, opens, opened.known, ?_, lacks, rfl⟩
    rintro rfl
    have covered := admits.required field spec lacks.declared lacks.required lacks.absent
    have uncovered := lacks.uncovered
    rw [coversLegacy_congr h.settings, covered] at uncovered
    cases uncovered
  | @refused _ parent place value breach name container refused =>
    have accepted := h.refusals_eq_nil same clean
    rw [Site.child, if_pos container] at accepted
    have kinds := kinds_childBreach later parent place value
    rw [accepted, refused] at kinds
    cases kinds

/-- An accepted document without a charge after the registry has evolved is accepted as the same
tree. -/
theorem accepts_same_tree (before : validator.registry.Sound) (after : later.registry.Sound)
    {document : Json} (canonical : document.Canonical) {tree : Node}
    (accepted : (validator.validate document).result = .ok tree)
    (clean : later.violations document = []) :
    (later.validate document).result = .ok tree := by
  obtain ⟨rfl, wellFormed⟩ := (result_eq_ok_iff_wellFormed before canonical).1 accepted
  exact result_eq_ok_of_clean after (wellFormed.tidy before canonical) clean

end Validator
end DocTree
