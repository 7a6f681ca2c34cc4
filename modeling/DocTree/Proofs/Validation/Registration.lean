import DocTree.Proofs.Validation.Evolution

/-!
# What entering a schema does to documents

A schema that is entered into a registry leaves accepted documents alone when it is new or already
there. As a successor it may require fields that they lack, and nothing else. Which documents stay
accepted then depends on what their nodes of the type still have in `data`.

## Main definitions

* `FieldSpec.LeftIn` — the key from which a field was promoted is still in `data`.
* `Schema.PromotedWithin` — the fields of a schema were promoted within a window of versions.
* `Schema.KeepsDataKeys` — the fields that a successor requires keep the data keys that they had.
* `Validator.Retains` — the nodes of a type still have in `data` what their fields were promoted
  from.

## Main statements

* `Validator.register_keeps_documents` — what becomes of an accepted document.
* `Validator.upgrade_honours_window` — which documents stay accepted within the compatibility
  window.
-/

namespace DocTree

/-- The key from which a field was promoted is still in `data`. -/
def FieldSpec.LeftIn (spec : FieldSpec) (data : Option (KeyMap Json)) : Prop :=
  ∃ origin, spec.promotedFrom = some origin ∧ data.any (·.contains origin.dataKey) = true

namespace Schema

/-- At a version, each promotion of a field of a schema is no more than a window of versions ago. -/
def PromotedWithin (schema : Schema) (version window : UInt32) : Prop :=
  ∀ field spec origin, schema.fields.get? field = some spec → spec.promotedFrom = some origin →
    version.toNat - origin.sinceVersion.toNat ≤ window.toNat

instance (schema : Schema) (version window : UInt32) :
    Decidable (schema.PromotedWithin version window) :=
  decidable_of_iff (∀ entry ∈ schema.fields.entries, entry.2.promotedFrom.all fun origin =>
      version.toNat - origin.sinceVersion.toNat ≤ window.toNat) <| by
    simp only [PromotedWithin, Prod.forall, KeyMap.mem_entries_iff, Option.all_eq_true,
      decide_eq_true_eq]
    exact ⟨fun h field spec origin declared => h field spec declared origin,
      fun h field spec declared origin => h field spec origin declared⟩

/-- A field that the later schema requires is still promoted from the key that it was promoted
from. -/
def KeepsDataKeys (earlier later : Schema) : Prop :=
  ∀ field spec next origin, earlier.fields.get? field = some spec →
    later.fields.get? field = some next → next.required = true →
    spec.promotedFrom = some origin →
    ∃ kept, next.promotedFrom = some kept ∧ kept.dataKey = origin.dataKey

end Schema

/-! ## The sample -/

namespace Sample

/-- The caption of figures, which stood in `data` before the third version. -/
def caption : FieldSpec :=
  { kind := .string, required := true, promotedFrom := some ⟨"caption", 3⟩ }

/-- Figures also have a caption. -/
def captioned : Schema := { figure with version := 3 }.withField "caption" caption

theorem get?_captioned (field : String) : captioned.fields.get? field =
    if field = "caption" then some caption else figure.fields.get? field :=
  KeyMap.get?_insert _ _ _ _

/-- Figures have a label, and it is no longer told where it stood before. -/
def forgetful : Schema :=
  { figure with version := 3 }.withField "label" { kind := .string, required := true }

/-- The registry with another schema for figures. -/
def upgradedTo (schema : Schema) : Registry := ⟨registry.schemas.insert "Figure" schema⟩

theorem register_captioned :
    registry.register captioned = .ok (.upgraded 2 3, upgradedTo captioned) := by rfl

theorem register_forgetful :
    registry.register forgetful = .ok (.upgraded 2 3, upgradedTo forgetful) := by rfl

/-- A figure with its label and its caption in `data`. -/
def uncaptionedFigure : Node :=
  .empty
    { typeName := "Figure"
      data := some ((KeyMap.empty.insert "label" (.string "a")).insert "caption" (.string "b")) }

end Sample

namespace Validator

variable {validator : Validator} {registry upgraded : Registry} {settings : ValidationSettings}
  {document : Json} {tree : Node}

/-- Where a node of a type lacks a required field of a schema, one out of some, the key from which
the field was promoted is still in `data`. -/
def Retains (validator : Validator) (document : Json) (schema : Schema) (among : String → Prop) :
    Prop :=
  ∀ object, validator.Occurs document schema.name object → ∀ field spec, among field →
    schema.fields.get? field = some spec → spec.required = true → object.get? field = none →
    spec.LeftIn (dataOf? object)

/-! ## Charges -/

theorem evolvesTo_of_register {schema : Schema} {outcome : Registration} (sound : registry.Sound)
    (entered : registry.register schema = .ok (outcome, upgraded)) :
    EvolvesTo ⟨registry, settings⟩ ⟨upgraded, settings⟩ :=
  ⟨rfl, sound.evolvesTo entered⟩

/-- All that an accepted document can be charged with after a schema was entered is that an object
of its type lacks a field that the schema requires, and only when it is a successor. -/
theorem lacks_of_register {schema : Schema} {outcome : Registration} (sound : registry.Sound)
    (entered : registry.register schema = .ok (outcome, upgraded))
    (clean : violations ⟨registry, settings⟩ document = []) {violation : Violation}
    (mem : violation ∈ violations ⟨upgraded, settings⟩ document) :
    (∃ earlier later, outcome = .upgraded earlier later) ∧
      ∃ site object field spec, Checked ⟨upgraded, settings⟩ (Site.root document) site ∧
        site.value.map? = some object ∧ object.get? "type" = some (.string schema.name) ∧
        Lacks ⟨upgraded, settings⟩ schema object field spec ∧
        violation = (Breach.fieldAbsent field).violation site.path (some schema.name) := by
  have after := sound.register entered
  obtain ⟨site, current, next, object, field, spec, checked, opens, known, changed, lacks, rfl⟩ :=
    (evolvesTo_of_register sound entered).lacks_of_mem_violations after clean mem
  obtain ⟨named, before, -⟩ := schemaOf?_eq_some sound known
  obtain ⟨named', found, -⟩ := schemaOf?_eq_some after opens.known
  have same : next.name = current.name := by simpa using named'.symm.trans named
  obtain ⟨-, rfl, outcome⟩ := Registry.changed_of_register entered before (same ▸ found) changed
  exact ⟨⟨_, _, outcome⟩, site, object, field, spec, checked, opens.read, named', lacks, rfl⟩

/-- **To enter a schema keeps documents.** A document that is accepted before a schema is entered is
accepted as the same tree afterwards when the schema is the first of its type or already there. When
it takes the place of another one, each violation of the document is that an object of its type
lacks a field that it requires, and without such a violation the document is accepted as the same
tree. -/
theorem register_keeps_documents (reachable : registry.Reachable) {schema : Schema}
    {outcome : Registration} (entered : registry.register schema = .ok (outcome, upgraded))
    (settings : ValidationSettings) (canonical : document.Canonical)
    (accepted : (validate ⟨registry, settings⟩ document).result = .ok tree) :
    (outcome = .inserted ∨ outcome = .unchanged →
      (validate ⟨upgraded, settings⟩ document).result = .ok tree) ∧
    ∀ earlier later, outcome = .upgraded earlier later →
      (∀ violation ∈ violations ⟨upgraded, settings⟩ document,
        ∃ site object field spec, Checked ⟨upgraded, settings⟩ (Site.root document) site ∧
          site.value.map? = some object ∧ object.get? "type" = some (.string schema.name) ∧
          Lacks ⟨upgraded, settings⟩ schema object field spec ∧
          violation = (Breach.fieldAbsent field).violation site.path (some schema.name)) ∧
      (violations ⟨upgraded, settings⟩ document = [] →
        (validate ⟨upgraded, settings⟩ document).result = .ok tree) := by
  have sound := reachable.sound
  have clean := violations_eq_nil_of_accepted accepted
  have again : violations ⟨upgraded, settings⟩ document = [] →
      (validate ⟨upgraded, settings⟩ document).result = .ok tree :=
    accepts_same_tree sound (sound.register entered) canonical accepted
  refine ⟨fun kept => again ?_, fun _ _ _ => ⟨fun violation mem => ?_, again⟩⟩
  · apply List.eq_nil_iff_forall_not_mem.2
    intro violation mem
    obtain ⟨⟨earlier, later, rfl⟩, -⟩ := lacks_of_register sound entered clean mem
    rcases kept with kept | kept <;> cases kept
  · exact (lacks_of_register sound entered clean mem).2

/-- Both figures of the sample lack a caption once figures have one, as an item and as a child. -/
theorem register_keeps_documents_boxed :
    Sample.registry.Reachable ∧
      Sample.registry.register Sample.captioned =
        .ok (.upgraded 2 3, Sample.upgradedTo Sample.captioned) ∧
      Sample.boxed.toJson.Canonical ∧
      (validate ⟨Sample.registry, {}⟩ Sample.boxed.toJson).result = .ok Sample.boxed ∧
      (violations ⟨Sample.upgradedTo Sample.captioned, {}⟩ Sample.boxed.toJson).map
          Violation.failure =
        [(Path.root.element "items" 0, .missingField), (Path.root.child 0, .missingField)] ∧
      ∀ violation ∈ violations ⟨Sample.upgradedTo Sample.captioned, {}⟩ Sample.boxed.toJson,
        violation.typeName = some "Figure" := by
  have canonical : Sample.boxed.toJson.Canonical := by decide
  have accepted : (validate ⟨Sample.registry, {}⟩ Sample.boxed.toJson).result =
      .ok Sample.boxed := by rfl
  refine ⟨Sample.reachable_registry, Sample.register_captioned, canonical, accepted, by rfl, ?_⟩
  intro violation mem
  obtain ⟨charges, -⟩ := (register_keeps_documents Sample.reachable_registry
    Sample.register_captioned {} canonical accepted).2 2 3 rfl
  obtain ⟨site, object, field, spec, -, -, -, -, rfl⟩ := charges violation mem
  rfl

/-! ## The compatibility window -/

/-- What makes up for an absent field does so when `data` has grown. -/
theorem coversLegacy_of_grown {schema : Schema} {spec : FieldSpec}
    {data grown : Option (KeyMap Json)} (h : validator.coversLegacy schema spec data = true)
    (kept : ∀ key value, data.bind (·.get? key) = some value →
      grown.bind (·.get? key) = some value) :
    validator.coversLegacy schema spec grown = true := by
  obtain ⟨legacy, origin, promoted, recent, left⟩ := coversLegacy_iff.1 h
  refine coversLegacy_iff.2 ⟨legacy, origin, promoted, recent, ?_⟩
  obtain ⟨map, here, contains⟩ := (Option.any_eq_true _ _).1 left
  obtain ⟨value, found⟩ := KeyMap.contains_iff.1 contains
  obtain ⟨map, here, found⟩ := Option.bind_eq_some_iff.1
    (kept origin.dataKey value (by rw [here]; exact found))
  exact (Option.any_eq_true _ _).2 ⟨map, here, KeyMap.contains_iff.2 ⟨value, found⟩⟩

/-- Within the window, `data` makes up for an absent field when it has its key. -/
theorem coversLegacy_iff_leftIn {schema : Schema} {field : String} {spec : FieldSpec}
    {data : Option (KeyMap Json)} (legacy : validator.settings.acceptLegacyData = true)
    (recent : schema.PromotedWithin schema.version validator.settings.compatibilityWindow)
    (declared : schema.fields.get? field = some spec) :
    validator.coversLegacy schema spec data = true ↔ spec.LeftIn data := by
  rw [coversLegacy_iff]
  constructor
  · rintro ⟨-, origin, promoted, -, left⟩
    exact ⟨origin, promoted, left⟩
  · rintro ⟨origin, promoted, left⟩
    exact ⟨legacy, origin, promoted, recent field spec origin declared promoted, left⟩

theorem admits_of_occurs {name : String} {object : KeyMap Json}
    (clean : validator.violations document = []) (occurs : validator.Occurs document name object) :
    ∃ schema, validator.registry.get? name = some schema ∧ validator.Admits schema object := by
  obtain ⟨site, checked, read, named⟩ := occurs
  obtain ⟨-, schema, found, opens, admits⟩ := admits_of_failuresAt (failuresAt_eq_nil clean checked)
  obtain rfl := Option.some.inj (read.symm.trans opens.read)
  refine ⟨schema, ?_, admits⟩
  simpa [schemaOf?, named, Json.string?] using opens.known

/-- What nodes lacked before was covered by keys of `data`, and the fields are still promoted from
these keys. -/
theorem retains_of_keepsDataKeys (sound : registry.Sound) {current next : Schema}
    {earlier later : UInt32} (known : registry.get? next.name = some current)
    (entered : registry.register next = .ok (.upgraded earlier later, upgraded))
    (clean : violations ⟨registry, settings⟩ document = []) (keeps : current.KeepsDataKeys next) :
    Retains ⟨registry, settings⟩ document next fun field => current.fields.get? field ≠ none := by
  intro object occurs field spec old declared required absent
  obtain ⟨before, known'⟩ := Option.ne_none_iff_exists'.1 old
  obtain ⟨schema, registered, admits⟩ := admits_of_occurs clean occurs
  obtain rfl : current = schema := Option.some.inj (known.symm.trans registered)
  have found := Registry.get?_of_upgraded entered
  obtain ⟨same, registered, grown⟩ := sound.evolvesTo entered next.name current known
  obtain rfl : next = same := Option.some.inj (found.symm.trans registered)
  obtain ⟨same, declared', kept⟩ := grown.fields field before known'
  obtain rfl : spec = same := Option.some.inj (declared.symm.trans declared')
  have covered := admits.required field before known' (kept.required required) absent
  obtain ⟨-, origin, promoted, -, left⟩ := coversLegacy_iff.1 covered
  obtain ⟨origin', promoted', key⟩ :=
    keeps field before spec origin known' declared required promoted
  exact ⟨origin', promoted', key ▸ left⟩

/-- **Which documents an upgrade keeps.** Old forms are accepted, all promotions of the new fields
are within the window, and the nodes of the type still have what new required fields were promoted
from. Then a document stays accepted exactly when they also have what the other required fields that
they lack are now promoted from. So they do when these fields are promoted from the same keys as
before, which registration does not compare. -/
theorem upgrade_honours_window (reachable : registry.Reachable) {current next : Schema}
    {earlier later : UInt32} (known : registry.get? next.name = some current)
    (entered : registry.register next = .ok (.upgraded earlier later, upgraded))
    (legacy : settings.acceptLegacyData = true)
    (recent : next.PromotedWithin next.version settings.compatibilityWindow)
    (canonical : document.Canonical)
    (accepted : (validate ⟨registry, settings⟩ document).result = .ok tree)
    (carried : Retains ⟨registry, settings⟩ document next
      fun field => current.fields.get? field = none) :
    ((validate ⟨upgraded, settings⟩ document).result = .ok tree ↔
      Retains ⟨registry, settings⟩ document next fun field => current.fields.get? field ≠ none) ∧
    (current.KeepsDataKeys next → (validate ⟨upgraded, settings⟩ document).result = .ok tree) := by
  have sound := reachable.sound
  have after := sound.register entered
  have clean := violations_eq_nil_of_accepted accepted
  have evolves : EvolvesTo ⟨registry, settings⟩ ⟨upgraded, settings⟩ :=
    evolvesTo_of_register sound entered
  have found := Registry.get?_of_upgraded entered
  have covers : ∀ {field spec data}, next.fields.get? field = some spec →
      (coversLegacy ⟨upgraded, settings⟩ next spec data = true ↔ spec.LeftIn data) :=
    fun declared => coversLegacy_iff_leftIn legacy recent declared
  have decides : (validate ⟨upgraded, settings⟩ document).result = .ok tree ↔
      Retains ⟨registry, settings⟩ document next
        fun field => current.fields.get? field ≠ none := by
    constructor
    · intro kept object occurs field spec _ declared required absent
      obtain ⟨schema, registered, admits⟩ := admits_of_occurs (violations_eq_nil_of_accepted kept)
        ((evolves.occurs_iff after clean).2 occurs)
      obtain rfl : next = schema := Option.some.inj (found.symm.trans registered)
      exact (covers declared).1 (admits.required field spec declared required absent)
    · intro retains
      refine accepts_same_tree sound after canonical accepted ?_
      apply List.eq_nil_iff_forall_not_mem.2
      intro violation mem
      obtain ⟨-, site, object, field, spec, checked, read, named, lacks, -⟩ :=
        lacks_of_register sound entered clean mem
      have occurs := (evolves.occurs_iff after clean).1 ⟨site, checked, read, named⟩
      have left : spec.LeftIn (dataOf? object) := by
        by_cases new : current.fields.get? field = none
        · exact carried object occurs field spec new lacks.declared lacks.required lacks.absent
        · exact retains object occurs field spec new lacks.declared lacks.required lacks.absent
      have uncovered := lacks.uncovered
      rw [(covers lacks.declared).2 left] at uncovered
      cases uncovered
  exact ⟨decides, fun keeps => decides.2 (retains_of_keepsDataKeys sound known entered clean keeps)⟩

/-- A figure with its label and its caption in `data` stays accepted when figures get captions. -/
theorem upgrade_honours_window_figure :
    Sample.registry.Reachable ∧ Sample.registry.get? "Figure" = some Sample.figure ∧
      Sample.registry.register Sample.captioned =
        .ok (.upgraded 2 3, Sample.upgradedTo Sample.captioned) ∧
      Sample.captioned.PromotedWithin 3 1 ∧ Sample.uncaptionedFigure.toJson.Canonical ∧
      (validate ⟨Sample.registry, {}⟩ Sample.uncaptionedFigure.toJson).result =
        .ok Sample.uncaptionedFigure ∧
      Retains ⟨Sample.registry, {}⟩ Sample.uncaptionedFigure.toJson Sample.captioned
        (fun field => Sample.figure.fields.get? field = none) ∧
      Sample.figure.KeepsDataKeys Sample.captioned ∧
      (validate ⟨Sample.upgradedTo Sample.captioned, {}⟩ Sample.uncaptionedFigure.toJson).result =
        .ok Sample.uncaptionedFigure := by
  have recent : Sample.captioned.PromotedWithin 3 1 := by decide
  have canonical : Sample.uncaptionedFigure.toJson.Canonical := by decide
  have accepted : (validate ⟨Sample.registry, {}⟩ Sample.uncaptionedFigure.toJson).result =
      .ok Sample.uncaptionedFigure := by rfl
  have sites : Sample.validator.within 256 (Site.root Sample.uncaptionedFigure.toJson) =
      [Site.root Sample.uncaptionedFigure.toJson] := by rfl
  have carried : Retains ⟨Sample.registry, {}⟩ Sample.uncaptionedFigure.toJson Sample.captioned
      fun field => Sample.figure.fields.get? field = none := by
    rintro object ⟨site, checked, read, -⟩ field spec new declared - -
    have mem := mem_within_root_iff.2 checked
    obtain rfl := List.mem_singleton.1 (sites ▸ mem)
    obtain rfl := Option.some.inj ((Node.map?_toJson Sample.uncaptionedFigure).symm.trans read)
    rw [Sample.get?_captioned] at declared
    split at declared
    · obtain rfl := Option.some.inj declared
      exact ⟨_, rfl, rfl⟩
    · rw [new] at declared
      cases declared
  have keeps : Sample.figure.KeepsDataKeys Sample.captioned := by
    intro field spec next origin known declared _ promoted
    rw [Sample.get?_captioned] at declared
    split at declared
    · rename_i same
      subst same
      cases known
    · obtain rfl := Option.some.inj (known.symm.trans declared)
      exact ⟨origin, promoted, rfl⟩
  have legacy : ({} : ValidationSettings).acceptLegacyData = true := by rfl
  exact ⟨Sample.reachable_registry, rfl, Sample.register_captioned, recent, canonical, accepted,
    carried, keeps, (upgrade_honours_window Sample.reachable_registry rfl
      Sample.register_captioned legacy recent canonical accepted carried).2 keeps⟩

/-- A figure with its label in `data` is not accepted any more when figures forget where it stood,
although no promotion is before the window and no new field is required. -/
theorem upgrade_loses_data_key :
    Sample.registry.Reachable ∧ Sample.registry.get? "Figure" = some Sample.figure ∧
      Sample.registry.register Sample.forgetful =
        .ok (.upgraded 2 3, Sample.upgradedTo Sample.forgetful) ∧
      ({} : ValidationSettings).acceptLegacyData = true ∧
      Sample.figure.PromotedWithin 3 1 ∧ Sample.forgetful.PromotedWithin 3 1 ∧
      (∀ field,
        Sample.figure.fields.get? field = none → Sample.forgetful.fields.get? field = none) ∧
      (validate ⟨Sample.registry, {}⟩ (Sample.earlyFigure (.string "a")).toJson).result =
        .ok (Sample.earlyFigure (.string "a")) ∧
      (violations ⟨Sample.upgradedTo Sample.forgetful, {}⟩
        (Sample.earlyFigure (.string "a")).toJson).map Violation.failure =
          [(.root, .missingField)] := by
  have same : ∀ field, Sample.figure.fields.get? field = none →
      Sample.forgetful.fields.get? field = none := by
    intro field absent
    have other : field ≠ "label" := by
      rintro rfl
      cases absent
    exact (KeyMap.get?_insert _ _ _ _).trans ((if_neg other).trans absent)
  exact ⟨Sample.reachable_registry, rfl, Sample.register_forgetful, rfl, by decide, by decide, same,
    rfl, rfl⟩

end Validator
end DocTree
