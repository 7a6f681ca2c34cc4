import DocTree.Proofs.Validation.Acceptance
import DocTree.Proofs.Validation.Forms

/-!
# Absent required fields

A required field that an object lacks is accounted for once: by a notice when `data` still has the
key that the field was promoted from, and by a violation when it does not. There are no other
notices.

## Main definitions

* `Validator.ReadsKey` — `data` makes up for an absent field.
* `Gap` — a required field that an object does not have.
* `Validator.gaps` — all gaps of a document.

## Main statements

* `Validator.legacyKey?_eq_some_iff` — which key of `data` makes up for an absent field.
* `Validator.read_check` — what the check of a value says of absent fields is what the gaps say.
* `Validator.absences_accounted` — all absent fields are accounted for, and nothing else is noticed.
-/

namespace DocTree

/-! ## Gaps -/

/-- A required field that an object does not have: where the object is, its type, the object, and
the field with its declaration. -/
structure Gap where
  site : Site
  schema : Schema
  object : KeyMap Json
  field : String
  spec : FieldSpec

namespace Gap

/-- The path of the object, and the field. -/
def place (gap : Gap) : Path × String := (gap.site.path, gap.field)

/-- The violation of a gap. -/
def violation (gap : Gap) : Violation :=
  (Breach.fieldAbsent gap.field).violation gap.site.path (some gap.schema.name)

/-- The notice that the field of a gap was read from a key of `data`. -/
def notice (gap : Gap) (key : String) : Notice := .legacyKeyRead gap.schema.name gap.field key

end Gap

/-- The gaps of an object of a type. -/
def Site.gaps (site : Site) (schema : Schema) (object : KeyMap Json) : List Gap :=
  (schema.fields.entries.filter fun (field, spec) => spec.required && !object.contains field).map
    fun (field, spec) => ⟨site, schema, object, field, spec⟩

namespace Validator

variable {validator : Validator} {schema : Schema} {object : KeyMap Json} {site : Site}

/-- `data` makes up for an absent field by one of its keys: old forms are accepted, the field was
promoted from this key within the window, and `data` has the key. -/
structure ReadsKey (validator : Validator) (schema : Schema) (spec : FieldSpec)
    (data : Option (KeyMap Json)) (key : String) : Prop where
  accepted : validator.settings.acceptLegacyData = true
  promoted : ∃ since, spec.promotedFrom = some ⟨key, since⟩ ∧
    schema.version.toNat - since.toNat ≤ validator.settings.compatibilityWindow.toNat
  kept : ∃ entries, data = some entries ∧ entries.contains key = true

/-- A document has a gap: a checked object of a registered type, above the depth limit, does not
have a field that its type requires. -/
structure HasGap (validator : Validator) (document : Json) (gap : Gap) : Prop where
  checked : validator.Checked (Site.root document) gap.site
  opens : validator.Opens gap.site gap.schema gap.object
  declared : gap.schema.fields.get? gap.field = some gap.spec
  required : gap.spec.required = true
  absent : gap.object.get? gap.field = none

/-- The type and the object at a site below which the check goes on. -/
def opened? (validator : Validator) (site : Site) : Option (Schema × KeyMap Json) :=
  site.value.map?.bind fun object =>
    if site.depth < validator.settings.maxDepth then
      (validator.schemaOf? object).map fun schema => (schema, object)
    else none

/-- The gaps of the object at a site. -/
def gapsAt (validator : Validator) (site : Site) : List Gap :=
  (validator.opened? site).toList.flatMap fun (schema, object) => site.gaps schema object

/-- The gaps of a document. -/
def gaps (validator : Validator) (document : Json) : List Gap :=
  (validator.within validator.settings.maxDepth (Site.root document)).flatMap validator.gapsAt

/-- The gaps that `data` makes up for, each with the key that does. -/
def covered (validator : Validator) (document : Json) : List (Gap × String) :=
  (validator.gaps document).filterMap fun gap =>
    (validator.legacyKey? gap.schema gap.spec gap.object).map fun key => (gap, key)

/-- The gaps that nothing makes up for. -/
def missing (validator : Validator) (document : Json) : List Gap :=
  (validator.gaps document).filter fun gap =>
    (validator.legacyKey? gap.schema gap.spec gap.object).isNone

/-- What is found at a gap. -/
def findingsAt (validator : Validator) (gap : Gap) : Findings :=
  match validator.legacyKey? gap.schema gap.spec gap.object with
  | some key => { notices := [gap.notice key] }
  | none => .violation gap.violation

theorem opened?_eq_some_iff :
    validator.opened? site = some (schema, object) ↔ validator.Opens site schema object := by
  simp only [opened?, Option.bind_eq_some_iff, Option.ite_none_right_eq_some,
    Option.map_eq_some_iff, Prod.mk.injEq]
  constructor
  · rintro ⟨_, read, shallow, _, known, rfl, rfl⟩
    exact ⟨shallow, read, known⟩
  · rintro ⟨shallow, read, known⟩
    exact ⟨_, read, shallow, _, known, rfl, rfl⟩

theorem gapsAt_eq (opens : validator.Opens site schema object) :
    validator.gapsAt site = site.gaps schema object := by
  simp [gapsAt, opened?_eq_some_iff.2 opens]

theorem gapsAt_eq_nil (closed : ∀ schema object, ¬validator.Opens site schema object) :
    validator.gapsAt site = [] := by
  have none : validator.opened? site = none := Option.eq_none_iff_forall_ne_some.2
    fun found opened => closed found.1 found.2 (opened?_eq_some_iff.1 opened)
  simp [gapsAt, none]

theorem mem_gaps_site_iff {gap : Gap} : gap ∈ site.gaps schema object ↔
    gap.site = site ∧ gap.schema = schema ∧ gap.object = object ∧
      schema.fields.get? gap.field = some gap.spec ∧ gap.spec.required = true ∧
      object.get? gap.field = none := by
  obtain ⟨at', type, map, field, spec⟩ := gap
  simp only [Site.gaps, List.mem_map, List.mem_filter, Prod.exists, Gap.mk.injEq,
    KeyMap.mem_entries_iff, Bool.and_eq_true, Bool.not_eq_true', KeyMap.contains_eq_false_iff]
  constructor
  · rintro ⟨_, _, ⟨declared, required, absent⟩, rfl, rfl, rfl, rfl, rfl⟩
    exact ⟨rfl, rfl, rfl, declared, required, absent⟩
  · rintro ⟨rfl, rfl, rfl, declared, required, absent⟩
    exact ⟨_, _, ⟨declared, required, absent⟩, rfl, rfl, rfl, rfl, rfl⟩

/-- The gaps of a document are listed. -/
theorem mem_gaps_iff {document : Json} {gap : Gap} :
    gap ∈ validator.gaps document ↔ validator.HasGap document gap := by
  simp only [gaps, gapsAt, List.mem_flatMap, mem_within_root_iff, Option.mem_toList, Prod.exists,
    opened?_eq_some_iff, mem_gaps_site_iff]
  constructor
  · rintro ⟨_, checked, _, _, opens, rfl, rfl, rfl, declared, required, absent⟩
    exact ⟨checked, opens, declared, required, absent⟩
  · rintro ⟨checked, opens, declared, required, absent⟩
    exact ⟨_, checked, _, _, opens, rfl, rfl, rfl, declared, required, absent⟩

/-! ## What a check says of gaps -/

variable {α : Type} {view : Findings.View α} {check : Path → Json → Verdict} {path : Path}

/-- Of all violations, a view shows those of absent fields at most. -/
def ShowsAbsences (view : Findings.View α) : Prop :=
  ∀ violation : Violation, violation.kind ≠ .missingField → view.read (.violation violation) = []

theorem read_none (view : Findings.View α) : view.read {} = [] := view.join []

theorem ShowsAbsences.read_violations (blind : ShowsAbsences view) {violations : List Violation}
    (other : ∀ violation ∈ violations, violation.kind ≠ .missingField) :
    view.read { violations } = [] := by
  induction violations with
  | nil => exact read_none view
  | cons first rest ih =>
    have split : ({ violations := first :: rest } : Findings) =
        .violation first ++ { violations := rest } := rfl
    rw [split, view.append, blind first (other first List.mem_cons_self),
      ih fun violation mem => other violation (List.mem_cons_of_mem _ mem), List.append_nil]

theorem ShowsAbsences.read_breached (blind : ShowsAbsences view) {typeName : String}
    {breaches : List Breach} (other : ∀ breach ∈ breaches, breach.kind ≠ .missingField) :
    view.read (breached path typeName breaches) = [] := by
  refine blind.read_violations fun violation mem => ?_
  obtain ⟨breach, found, rfl⟩ := List.mem_map.1 mem
  exact other breach found

theorem flatMap_filter {β : Type} (items : List β) (keep : β → Bool) (f : β → List α) :
    (items.filter keep).flatMap f = items.flatMap fun item => if keep item then f item else [] := by
  induction items with
  | nil => rfl
  | cons item items ih =>
    rw [List.filter_cons, List.flatMap_cons, ← ih]
    split <;> simp

/-- A declared field says what there is to say of its absence, and what the check finds in its list
of nodes. -/
theorem ShowsAbsences.read_checkField (blind : ShowsAbsences view) (field : String)
    (spec : FieldSpec) :
    view.read (validator.checkField check site.path schema object field spec) =
      (if spec.required && !object.contains field then
          view.read (validator.findingsAt ⟨site, schema, object, field, spec⟩)
        else []) ++
        (listItems spec object field).zipIdx.flatMap fun (item, place) =>
          view.read (check (site.path.element field place) item).findings := by
  have refused : ∀ kind value, view.read
      (breached site.path schema.name [.fieldOfOtherKind field kind value]) = [] :=
    fun kind value => blind.read_breached (by simp [Breach.kind])
  unfold checkField listItems KeyMap.contains
  cases found : object.get? field with
  | none =>
    cases required : spec.required with
    | false => simp [read_none]
    | true =>
      unfold findingsAt
      cases validator.legacyKey? schema spec object <;>
        simp [breached, Findings.violation, Gap.violation, Gap.notice]
  | some value =>
    by_cases kind : spec.kind = .nodeList
    · rw [kind]
      cases fits : FieldKind.nodeList.fits value with
      | false => simp [fits, items?_of_not_fits fits, refused]
      | true => simp [fits, flatMap_mapIdx, view.join]
    · cases fits : spec.kind.fits value <;> simp [fits, kind, refused, read_none]

/-- What an object says apart from its children is what its gaps say, and what the check finds in
its lists of nodes. -/
theorem ShowsAbsences.read_checkFields (blind : ShowsAbsences view) :
    (view.read (validator.checkFields check site.path schema object)).Perm
      ((site.gaps schema object).flatMap (fun gap => view.read (validator.findingsAt gap)) ++
        schema.fields.entries.flatMap fun (field, spec) =>
          (listItems spec object field).zipIdx.flatMap fun (item, place) =>
            view.read (check (site.path.element field place) item).findings) := by
  have content : view.read (breached site.path schema.name
      ((contentBreach? schema object).toList ++ (valueBreach? schema object).toList)) = [] := by
    refine blind.read_breached fun breach mem same => ?_
    have kinds := same ▸ List.mem_map_of_mem (f := Breach.kind) mem
    rw [List.map_append, kinds_contentBreach, kinds_valueBreach] at kinds
    grind
  have others : view.read (breached site.path schema.name
      ((undeclaredKeys schema object).map (fun key => .fieldUndeclared key schema.name) ++
        (dataBreach? object).toList)) = [] := by
    refine blind.read_breached fun breach mem same => ?_
    have kinds := same ▸ List.mem_map_of_mem (f := Breach.kind) mem
    rw [List.map_append, kinds_dataBreach, List.map_map] at kinds
    grind [Breach.kind]
  have gaps : (site.gaps schema object).flatMap (fun gap => view.read (validator.findingsAt gap)) =
      schema.fields.entries.flatMap fun (field, spec) =>
        if spec.required && !object.contains field then
          view.read (validator.findingsAt ⟨site, schema, object, field, spec⟩)
        else [] := by
    rw [Site.gaps, List.flatMap_map, flatMap_filter]
  rw [checkFields, view.append, view.append, content, others, List.nil_append, List.append_nil,
    view.join, List.flatMap_map, gaps]
  simp only [blind.read_checkField]
  exact (List.flatMap_append_perm _ _ _).symm

theorem kind_of_childBreach? {parent : Schema} {place : Nat} {child : Json}
    {refusal : Breach × String}
    (refused : validator.childBreach? parent place child = some refusal) :
    refusal.1.kind = .invalidChildClass := by
  have kinds := kinds_childBreach validator parent place child
  rw [refused] at kinds
  unfold refusals at kinds
  split at kinds
  · simpa using kinds
  · simp at kinds

/-- What a child says is what the check finds there. -/
theorem ShowsAbsences.read_checkChild (blind : ShowsAbsences view) (parent : Schema) (place : Nat)
    (child : Json) :
    view.read (validator.checkChild check path parent place child).findings =
      view.read (check (path.child place) child).findings := by
  unfold checkChild
  rw [view.append, blind.read_violations, List.nil_append]
  intro violation mem missing
  obtain ⟨refusal, found, rfl⟩ := List.mem_map.1 mem
  rw [Option.mem_toList] at found
  split at found
  · cases (kind_of_childBreach? found).symm.trans missing
  · cases found

/-- What an object says is what its gaps say, and what the check finds right below it. -/
theorem ShowsAbsences.read_checkNode (blind : ShowsAbsences view)
    (opens : validator.Opens site schema object) :
    (view.read (validator.checkNode check site.path schema object).findings).Perm
      ((validator.gapsAt site).flatMap (fun gap => view.read (validator.findingsAt gap)) ++
        (validator.sitesBelow site).flatMap fun next =>
          view.read (check next.path next.value).findings) := by
  rw [gapsAt_eq opens, sitesBelow_eq opens, List.flatMap_append, List.flatMap_assoc]
  simp only [List.flatMap_map, ← List.append_assoc]
  have node : view.read (validator.checkNode check site.path schema object).findings =
      view.read (validator.checkFields check site.path schema object) ++
        (childItems object).zipIdx.flatMap fun (child, place) =>
          view.read (check (site.path.child place) child).findings := by
    rw [findings_checkNode, view.append, view.join, flatMap_mapIdx]
    simp only [blind.read_checkChild]
    rfl
  rw [node]
  exact blind.read_checkFields.append_right _

/-! ## Whole values -/

/-- A check that goes down to the depth limit says of absent fields what the gaps below say. -/
theorem read_check (blind : ShowsAbsences view) {levels : Nat} {site : Site}
    (deep : levels + site.depth = validator.settings.maxDepth) :
    (view.read (validator.check levels site.path site.value).findings).Perm
      ((validator.within levels site).flatMap fun found =>
        (validator.gapsAt found).flatMap fun gap => view.read (validator.findingsAt gap)) := by
  refine perm_within
    (fun levels site => view.read (validator.check levels site.path site.value).findings) ?_ ?_ deep
  · intro levels site deep closed
    obtain ⟨violation, refused, kind⟩ := exists_refused site deep closed
    rw [refused, gapsAt_eq_nil closed]
    exact blind violation fun missing => by simp [missing] at kind
  · intro levels site schema object opens
    rw [check_succ opens.read opens.known]
    exact blind.read_checkNode opens

/-! ## Documents -/

theorem message_fieldAbsent_inj {f g : String}
    (same : (Breach.fieldAbsent f).message = (Breach.fieldAbsent g).message) : f = g :=
  (String.append_right_inj _).1 ((String.append_left_inj _).1 same)

/-- A gap is told by its violation. -/
theorem place_eq_of_violation_eq {gap other : Gap} (same : gap.violation = other.violation) :
    gap.place = other.place :=
  Prod.ext (congrArg Violation.path same)
    (message_fieldAbsent_inj (congrArg Violation.message same))

/-- Which key of `data` makes up for an absent field. -/
theorem legacyKey?_eq_some_iff {spec : FieldSpec} {key : String} :
    validator.legacyKey? schema spec object = some key ↔
      validator.ReadsKey schema spec (dataOf? object) key := by
  have steps : validator.legacyKey? schema spec object = some key ↔
      ∃ origin, spec.promotedFrom = some origin ∧ ∃ data, dataOf? object = some data ∧
        (validator.settings.acceptLegacyData = true ∧
          schema.version.toNat - origin.sinceVersion.toNat ≤
            validator.settings.compatibilityWindow.toNat ∧
          data.contains origin.dataKey = true) ∧ origin.dataKey = key := by
    simp only [legacyKey?, dataOf?, bind, Option.bind_eq_some_iff, Option.ite_none_right_eq_some,
      Option.some.injEq]
    grind
  rw [steps]
  constructor
  · rintro ⟨⟨_, since⟩, promoted, data, read, ⟨accepted, recent, kept⟩, rfl⟩
    exact ⟨accepted, ⟨since, promoted, recent⟩, data, read, kept⟩
  · rintro ⟨accepted, ⟨since, promoted, recent⟩, data, read, kept⟩
    exact ⟨⟨key, since⟩, promoted, data, read, ⟨accepted, recent, kept⟩, rfl⟩

theorem site_of_mem_gapsAt {gap : Gap} (mem : gap ∈ validator.gapsAt site) : gap.site = site := by
  obtain ⟨opened, -, found⟩ := List.mem_flatMap.1 mem
  exact (mem_gaps_site_iff.1 found).1

theorem pairwise_gaps (site : Site) (schema : Schema) (object : KeyMap Json) :
    (site.gaps schema object).Pairwise fun a b => a.place ≠ b.place := by
  refine List.pairwise_map.2 ((schema.fields.ordered.filter _).imp ?_)
  intro a b less same
  have field : a.1 = b.1 := congrArg Prod.snd same
  exact String.lt_irrefl b.1 (field ▸ less)

/-- No two gaps of a document are at the same place. -/
theorem nodup_places (validator : Validator) (document : Json) :
    ((validator.gaps document).map Gap.place).Nodup := by
  refine List.pairwise_map.2 (List.pairwise_flatMap.2 ⟨fun site _ => ?_, ?_⟩)
  · by_cases opened : ∃ schema object, validator.Opens site schema object
    · obtain ⟨schema, object, opens⟩ := opened
      rw [gapsAt_eq opens]
      exact pairwise_gaps site schema object
    · rw [gapsAt_eq_nil fun schema object opens => opened ⟨schema, object, opens⟩]
      exact .nil
  · refine (List.pairwise_map.1 (nodup_within validator _ _)).imp ?_
    intro p q apart gap mem other mem' same
    have path : gap.site.path = other.site.path := congrArg Prod.fst same
    rw [site_of_mem_gapsAt mem, site_of_mem_gapsAt mem'] at path
    exact apart path

/-- What a view shows of the check of a document is what it shows of the gaps. -/
theorem read_verdict (blind : ShowsAbsences view) (document : Json) :
    (view.read (validator.verdict document).findings).Perm
      ((validator.gaps document).flatMap fun gap => view.read (validator.findingsAt gap)) := by
  have deep : validator.settings.maxDepth + (Site.root document).depth =
      validator.settings.maxDepth := Nat.add_zero _
  rw [gaps, List.flatMap_assoc]
  exact read_check blind deep

/-! ## Covered and missing fields -/

variable {document : Json}

theorem mem_covered_iff {gap : Gap} {key : String} :
    (gap, key) ∈ validator.covered document ↔ validator.HasGap document gap ∧
      validator.ReadsKey gap.schema gap.spec (dataOf? gap.object) key := by
  rw [← mem_gaps_iff, ← legacyKey?_eq_some_iff]
  simp only [covered, List.mem_filterMap, Option.map_eq_some_iff, Prod.mk.injEq]
  constructor
  · rintro ⟨_, mem, _, found, rfl, rfl⟩
    exact ⟨mem, found⟩
  · rintro ⟨mem, found⟩
    exact ⟨_, mem, _, found, rfl, rfl⟩

theorem mem_missing_iff {gap : Gap} :
    gap ∈ validator.missing document ↔ validator.HasGap document gap ∧
      ¬∃ key, validator.ReadsKey gap.schema gap.spec (dataOf? gap.object) key := by
  simp only [missing, List.mem_filter, mem_gaps_iff, ← legacyKey?_eq_some_iff,
    ← Option.isSome_iff_exists, Option.not_isSome_iff_eq_none, Option.isNone_iff_eq_none]

/-- Each gap is covered or missing, and not both. -/
theorem covered_append_missing_perm (validator : Validator) (document : Json) :
    ((validator.covered document).map (·.1) ++ validator.missing document).Perm
      (validator.gaps document) := by
  have first : (validator.covered document).map (·.1) = (validator.gaps document).filter
      fun gap => !(validator.legacyKey? gap.schema gap.spec gap.object).isNone := by
    rw [covered, List.map_filterMap, ← List.filterMap_eq_filter]
    refine List.filterMap_congr fun gap _ => ?_
    cases found : validator.legacyKey? gap.schema gap.spec gap.object <;>
      simp [Option.guard, found]
  rw [first]
  exact List.perm_append_comm.trans (List.filter_append_perm _ _)

theorem nodup_places_covered_missing (validator : Validator) (document : Json) :
    ((validator.covered document).map (·.1.place) ++
      (validator.missing document).map Gap.place).Nodup := by
  have places := (covered_append_missing_perm validator document).map Gap.place
  rw [List.map_append, List.map_map] at places
  exact places.nodup_iff.2 (nodup_places validator document)

theorem notices_perm (validator : Validator) (document : Json) :
    (validator.validate document).notices.Perm
      ((validator.covered document).map fun found => found.1.notice found.2) := by
  have blind : ShowsAbsences .notices := fun _ _ => rfl
  refine (read_verdict blind document).trans (.of_eq ?_)
  rw [covered, List.map_filterMap, List.filterMap_eq_flatMap_toList]
  refine List.flatMap_congr fun gap _ => ?_
  simp only [Findings.View.notices, findingsAt]
  cases validator.legacyKey? gap.schema gap.spec gap.object <;> rfl

theorem missingField_violations_perm (validator : Validator) (document : Json) :
    ((validator.violations document).filter (·.kind = .missingField)).Perm
      ((validator.missing document).map Gap.violation) := by
  have blind : ShowsAbsences (.violations (·.kind = .missingField)) := by
    intro violation other
    simp [Findings.View.violations, Findings.violation, other]
  rw [violations_eq]
  refine (read_verdict blind document).trans (.of_eq ?_)
  rw [missing, ← List.flatMap_pure_eq_map, flatMap_filter]
  refine List.flatMap_congr fun gap _ => ?_
  simp only [Findings.View.violations, findingsAt]
  cases validator.legacyKey? gap.schema gap.spec gap.object <;> rfl

theorem nodup_violations_missing (validator : Validator) (document : Json) :
    ((validator.missing document).map Gap.violation).Nodup := by
  have places := (List.nodup_append.1 (nodup_places_covered_missing validator document)).2.1
  exact List.pairwise_map.2 ((List.pairwise_map.1 places).imp fun apart same =>
    apart (place_eq_of_violation_eq same))

/-- **Absent required fields are accounted for once.** The gaps of a document are those that a key
of `data` makes up for and those that none does, each of them once. The notices are those of the
former, and the violations for a missing field those of the latter, which are all different. A
field was never promoted in a version that is later than that of its type. -/
theorem absences_accounted (reachable : validator.registry.Reachable) (document : Json) :
    (∀ gap key, (gap, key) ∈ validator.covered document ↔ validator.HasGap document gap ∧
      validator.ReadsKey gap.schema gap.spec (dataOf? gap.object) key) ∧
    (∀ gap, gap ∈ validator.missing document ↔ validator.HasGap document gap ∧
      ¬∃ key, validator.ReadsKey gap.schema gap.spec (dataOf? gap.object) key) ∧
    ((validator.covered document).map (·.1.place) ++
      (validator.missing document).map Gap.place).Nodup ∧
    (validator.validate document).notices.Perm
      ((validator.covered document).map fun found => found.1.notice found.2) ∧
    ((validator.violations document).filter (·.kind = .missingField)).Perm
      ((validator.missing document).map Gap.violation) ∧
    ((validator.missing document).map Gap.violation).Nodup ∧
    ∀ gap origin, validator.HasGap document gap → gap.spec.promotedFrom = some origin →
      origin.sinceVersion ≤ gap.schema.version := by
  refine ⟨fun _ _ => mem_covered_iff, fun _ => mem_missing_iff,
    nodup_places_covered_missing validator document, notices_perm validator document,
    missingField_violations_perm validator document,
    nodup_violations_missing validator document, ?_⟩
  intro gap origin has promoted
  obtain ⟨name, -, known⟩ := Option.bind_eq_some_iff.1 has.opens.known
  exact Schema.promoted_by_now (reachable.sound name gap.schema known).2.2 has.declared promoted

end Validator

/-- A box with a key that boxes do not declare, around a figure whose label still stands in `data`
and a figure without a label. -/
def Sample.halfLabelled : Json :=
  .object
    [("children", .array [(Sample.earlyFigure (.string "a")).toJson,
        .object [("type", .string "Figure")]]),
      ("size", .bool true), ("type", .string "Box")]

namespace Validator

/-- One label is read from `data` and the other one is missing, each of them once, although the box
has a violation besides. -/
theorem absences_accounted_halfLabelled :
    Sample.registry.Reachable ∧
      (Sample.validator.validate Sample.halfLabelled).notices =
        [.legacyKeyRead "Figure" "label" "label"] ∧
      (Sample.validator.violations Sample.halfLabelled).map Violation.failure =
        [(.root, .unexpectedField), (Path.root.child 1, .missingField)] ∧
      (Sample.validator.covered Sample.halfLabelled).length = 1 ∧
      (Sample.validator.missing Sample.halfLabelled).length = 1 := by
  have reachable : Sample.validator.registry.Reachable := Sample.reachable_registry
  obtain ⟨-, -, -, notices, violations, -⟩ := absences_accounted reachable Sample.halfLabelled
  have noticed : (Sample.validator.validate Sample.halfLabelled).notices =
      [.legacyKeyRead "Figure" "label" "label"] := rfl
  have reported : ((Sample.validator.violations Sample.halfLabelled).filter
      (·.kind = .missingField)).length = 1 := rfl
  refine ⟨reachable, noticed, rfl, ?_, ?_⟩
  · rw [← List.length_map, ← notices.length_eq, noticed]
    rfl
  · rw [← List.length_map, ← violations.length_eq, reported]

end Validator
end DocTree
