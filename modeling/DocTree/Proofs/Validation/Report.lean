import DocTree.Proofs.Validation.Sites

/-!
# What a report says

The violations of a document, as pairs of a path and a kind, are the failures at its checked sites:
none is lost, none is made up, and none is reported twice.

## Main definitions

* `Validator.failuresAt` — the kinds of the failures at a site.
* `Validator.violations` — the violations that the check of a document reports.

## Main statements

* `Validator.failures_checkNode` — one object reports its own failures and those right below it.
* `Validator.failures_check` — a value reports the failures at the sites below it.
* `Validator.violations_perm_failures` — a document reports the failures at its checked sites.
-/

namespace DocTree

/-- Where a violation is, and of which kind. -/
def Violation.failure (violation : Violation) : Path × ViolationKind :=
  (violation.path, violation.kind)

/-- Where the violations of a part of a document are, and of which kinds. -/
def Findings.failures (findings : Findings) : List (Path × ViolationKind) :=
  findings.violations.map Violation.failure

namespace Findings

@[simp] theorem failures_append (x y : Findings) :
    (x ++ y).failures = x.failures ++ y.failures := by
  simp [failures]

@[simp] theorem failures_join (parts : List Findings) :
    (join parts).failures = parts.flatMap failures := by
  simp only [failures, violations_join, List.map_flatMap]
  rfl

@[simp] theorem failures_nil : ({} : Findings).failures = [] := rfl

@[simp] theorem failures_notices (notices : List Notice) :
    ({ notices } : Findings).failures = [] := rfl

@[simp] theorem failures_violation (violation : Violation) :
    (Findings.violation violation).failures = [violation.failure] := rfl

end Findings

namespace Validator

variable {validator : Validator}

/-! ## Definitions -/

/-- The kinds of the failures at a site. -/
def failuresAt (validator : Validator) (site : Site) : List ViolationKind :=
  validator.refusals site.parent site.value ++
  match site.value.map? with
  | none => [.contentShape]
  | some object =>
    if site.depth < validator.settings.maxDepth then
      match validator.schemaOf? object with
      | none => [.unknownType]
      | some schema => validator.failures schema object
    else [.depthLimit]

/-- The violations that the check of a document reports; a document with a tree has none. -/
def violations (validator : Validator) (document : Json) : List Violation :=
  match (validator.validate document).result with
  | .ok _ => []
  | .error report => report.violations

/-! ## One object -/

@[simp] theorem failures_breached (path : Path) (typeName : String) (breaches : List Breach) :
    (breached path typeName breaches).failures =
      breaches.map fun breach => (path, breach.kind) := by
  simp [Findings.failures, breached, Violation.failure, Breach.violation]

theorem flatMap_mapIdx {α β γ : Type} (items : List α) (f : Nat → α → β) (g : β → List γ) :
    (items.mapIdx f).flatMap g = items.zipIdx.flatMap fun (item, place) => g (f place item) := by
  rw [List.mapIdx_eq_zipIdx_map, List.flatMap_map]

theorem items?_of_not_fits {value : Json} (h : FieldKind.nodeList.fits value = false) :
    value.items? = none := by
  cases value <;> simp_all [Json.items?, FieldKind.fits]

/-- A declared field reports its own failure, and what the check finds in its list of nodes. -/
theorem failures_checkField (check : Path → Json → Verdict) (path : Path) (schema : Schema)
    (object : KeyMap Json) (field : String) (spec : FieldSpec) :
    (validator.checkField check path schema object field spec).failures =
      (validator.fieldFailures schema object field spec).map (path, ·) ++
        (listItems spec object field).zipIdx.flatMap fun (item, place) =>
          (check (path.element field place) item).findings.failures := by
  unfold checkField fieldFailures listItems
  cases found : object.get? field with
  | none =>
    have covered := isSome_legacyKey validator schema spec object
    cases required : spec.required with
    | false => simp
    | true =>
      cases legacy : validator.legacyKey? schema spec object with
      | none =>
        have uncovered : validator.coversLegacy schema spec (dataOf? object) = false := by
          simpa [legacy] using covered.symm
        simp [uncovered, Breach.kind]
      | some key =>
        have covers : validator.coversLegacy schema spec (dataOf? object) = true := by
          simpa [legacy] using covered.symm
        simp [covers]
  | some value =>
    by_cases kind : spec.kind = .nodeList
    · rw [kind]
      cases fits : FieldKind.nodeList.fits value with
      | false => simp [fits, items?_of_not_fits fits, Breach.kind]
      | true => simp [fits, flatMap_mapIdx]
    · cases fits : spec.kind.fits value <;> simp [fits, kind, Breach.kind]

/-- An object reports its own failures, apart from its children, and what the check finds in its
lists of nodes. -/
theorem failures_checkFields (check : Path → Json → Verdict) (path : Path) (schema : Schema)
    (object : KeyMap Json) :
    (validator.checkFields check path schema object).failures.Perm
      ((validator.failures schema object).map (path, ·) ++
        schema.fields.entries.flatMap fun (field, spec) =>
          (listItems spec object field).zipIdx.flatMap fun (item, place) =>
            (check (path.element field place) item).findings.failures) := by
  have content := congrArg (List.map (path, ·)) (kinds_contentBreach schema object)
  have value := congrArg (List.map (path, ·)) (kinds_valueBreach schema object)
  have data := congrArg (List.map (path, ·)) (kinds_dataBreach object)
  have fields := List.flatMap_append_perm schema.fields.entries
    (fun (field, spec) => (validator.fieldFailures schema object field spec).map (path, ·))
    (fun (field, spec) => (listItems spec object field).zipIdx.flatMap fun (item, place) =>
      (check (path.element field place) item).findings.failures)
  simp only [checkFields, Findings.failures_append, failures_breached, Findings.failures_join,
    failures_checkField, List.flatMap_map, List.map_append, List.map_map, Function.comp_def,
    undeclaredKeys, Breach.kind] at content value data ⊢
  simp only [failures, List.map_append, List.map_flatMap, List.map_map, Function.comp_def,
    content, value, data, List.append_assoc]
  refine .append_left _ (.append_left _ ?_)
  refine (fields.symm.append_right _).trans ?_
  rw [List.append_assoc]
  refine .append_left _ ?_
  rw [← List.append_assoc _ _ (List.flatMap _ _)]
  exact List.perm_append_comm

/-- What a check of the values below reports of a site: whether its container accepts it, and what
it finds there. -/
def reported (validator : Validator) (check : Path → Json → Verdict) (site : Site) :
    List (Path × ViolationKind) :=
  (validator.refusals site.parent site.value).map (site.path, ·) ++
    (check site.path site.value).findings.failures

theorem refusals_none (child : Json) : validator.refusals none child = [] := rfl

/-- A child reports whether its container accepts it, and what the check finds there. -/
theorem failures_checkChild (check : Path → Json → Verdict) (site : Site) (schema : Schema)
    (place : Nat) (child : Json) :
    (validator.checkChild check site.path schema place child).findings.failures =
      validator.reported check (site.child schema place child) := by
  have kinds := kinds_childBreach validator schema place child
  unfold checkChild reported Site.child
  by_cases container : schema.contentClass = .container
  · simp only [container, if_true, Findings.failures_append]
    simp [← kinds, Findings.failures, Violation.failure, Breach.violation]
  · simp [container, refusals_none, Findings.failures]

/-- An object reports its own failures and what the check finds right below it. -/
theorem failures_checkNode (check : Path → Json → Verdict) {site : Site} {schema : Schema}
    {object : KeyMap Json} (h : validator.Opens site schema object) :
    (validator.checkNode check site.path schema object).findings.failures.Perm
      ((validator.failures schema object).map (site.path, ·) ++
        (validator.sitesBelow site).flatMap (validator.reported check)) := by
  have children : ((childItems object).mapIdx fun place child =>
        validator.checkChild check site.path schema place child).flatMap (·.findings.failures) =
      (childItems object).zipIdx.flatMap fun (child, place) =>
        validator.reported check (site.child schema place child) := by
    simp only [flatMap_mapIdx, failures_checkChild]
  rw [sitesBelow_eq h, List.flatMap_append, List.flatMap_assoc]
  simp only [List.flatMap_map, ← List.append_assoc]
  have node : (validator.checkNode check site.path schema object).findings.failures =
      (validator.checkFields check site.path schema object).failures ++
        ((childItems object).mapIdx fun place child =>
          validator.checkChild check site.path schema place child).flatMap
            (·.findings.failures) := by
    simp [checkNode, childItems, List.flatMap_map]
  rw [node, children]
  exact (failures_checkFields check site.path schema object).append_right _

/-! ## Whole values -/

theorem failures_check_of_closed {levels : Nat} {site : Site}
    (deep : levels + site.depth = validator.settings.maxDepth)
    (closed : ∀ schema object, ¬validator.Opens site schema object) :
    validator.reported (validator.check levels) site =
      (validator.failuresAt site).map (site.path, ·) := by
  unfold reported failuresAt
  rw [List.map_append]
  refine congrArg _ ?_
  cases read : site.value.map? with
  | none =>
    rw [check, read]
    rfl
  | some object =>
    cases levels with
    | zero =>
      have limit : ¬site.depth < validator.settings.maxDepth := by omega
      rw [check, read]
      simp only [if_neg limit]
      rfl
    | succ levels =>
      have shallow : site.depth < validator.settings.maxDepth := by omega
      have unknown : validator.schemaOf? object = none :=
        Option.eq_none_iff_forall_ne_some.2 fun schema known =>
          closed schema object ⟨shallow, read, known⟩
      obtain ⟨violation, refused, path, kind⟩ :=
        check_succ_of_unknown levels site.path read unknown
      simp [refused, Verdict.refused, shallow, unknown, Violation.failure, path, kind]

/-- A check that goes down to the depth limit reports the failures at all sites below. -/
theorem failures_check {levels : Nat} {site : Site}
    (deep : levels + site.depth = validator.settings.maxDepth) :
    (validator.reported (validator.check levels) site).Perm
      ((validator.within levels site).flatMap fun found =>
        (validator.failuresAt found).map (found.path, ·)) := by
  refine perm_within (fun levels => validator.reported (validator.check levels))
    (fun levels site deep closed => failures_check_of_closed deep closed) ?_ deep
  intro levels site schema object opens
  have here : validator.reported (validator.check (levels + 1)) site =
      (validator.refusals site.parent site.value).map (site.path, ·) ++
        (validator.checkNode (validator.check levels) site.path schema
          object).findings.failures := by
    rw [reported, check_succ opens.read opens.known]
  have own : validator.failuresAt site =
      validator.refusals site.parent site.value ++ validator.failures schema object := by
    simp [failuresAt, opens.read, opens.shallow, opens.known]
  rw [here, own, List.map_append, List.append_assoc]
  exact .append_left _ (failures_checkNode _ opens)

theorem violations_eq (validator : Validator) (document : Json) :
    validator.violations document = (validator.verdict document).findings.violations := by
  unfold violations validate
  obtain ⟨node, violations, notices⟩ := validator.verdict document
  cases violations <;> cases node <;> rfl

/-- The violations of a document are the failures at its sites down to the depth limit. -/
theorem violations_perm_within (validator : Validator) (document : Json) :
    ((validator.violations document).map Violation.failure).Perm
      ((validator.within validator.settings.maxDepth (Site.root document)).flatMap fun site =>
        (validator.failuresAt site).map (site.path, ·)) := by
  have report : (validator.violations document).map Violation.failure =
      validator.reported (validator.check validator.settings.maxDepth) (Site.root document) := by
    rw [violations_eq]
    rfl
  rw [report]
  exact failures_check (Nat.add_zero _)

theorem mem_violations_iff {document : Json} {path : Path} {kind : ViolationKind} :
    (path, kind) ∈ (validator.violations document).map Violation.failure ↔
      ∃ site, validator.Checked (Site.root document) site ∧ site.path = path ∧
        kind ∈ validator.failuresAt site := by
  rw [(violations_perm_within validator document).mem_iff]
  simp only [List.mem_flatMap, List.mem_map, Prod.mk.injEq, mem_within_root_iff]
  constructor
  · rintro ⟨site, checked, kind, found, rfl, rfl⟩
    exact ⟨site, checked, rfl, found⟩
  · rintro ⟨site, checked, rfl, found⟩
    exact ⟨site, checked, kind, found, rfl, rfl⟩

/-- **The report is exact.** The sites that are checked have different paths, and the violations of
a document, each as its path and its kind, are the failures at these sites, in some order. -/
theorem violations_perm_failures (validator : Validator) (document : Json) :
    ∃ sites : List Site, (sites.map (·.path)).Nodup ∧
      (∀ site, site ∈ sites ↔ validator.Checked (Site.root document) site) ∧
      ((validator.violations document).map Violation.failure).Perm
        (sites.flatMap fun site => (validator.failuresAt site).map (site.path, ·)) :=
  ⟨validator.within validator.settings.maxDepth (Site.root document), nodup_within validator _ _,
    fun _ => mem_within_root_iff, violations_perm_within validator document⟩

end Validator
end DocTree
