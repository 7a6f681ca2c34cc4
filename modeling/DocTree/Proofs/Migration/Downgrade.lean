import DocTree.Proofs.Migration.Demotion
import DocTree.Proofs.Migration.Steps
import DocTree.Proofs.Node.Equality
import DocTree.Proofs.Validation.Forms
import DocTree.Proofs.Validation.Registration

/-!
# Documents for earlier readers

A type gets a new version that adds promoted fields and leaves all others alone. A document that
was accepted with the new version is brought back to the version before by the derived step. What
comes of it is accepted by a reader that has never heard of the new version, when no list of nodes
holds nodes of the type, for a demotion does not look into lists.

## Main definitions

* `Schema.Promotes` — the next version of a type adds promoted fields only.
* `Validator.Lists` — a list of nodes holds a node of a type, at some depth.

## Main statements

* `Schema.Promotes.obeys_demoted` — a demoted node obeys the version before.
* `Validator.wellFormedAt_demoted` — a demoted tree is well formed for the earlier registry.
* `Migrations.downgrade_accepted` — what a downgrade makes of an accepted document is accepted.
-/

namespace DocTree

/-! ## Definitions -/

/-- The later schema is one version on. It declares all fields of the current one as they were, and
the others were promoted in its version, no two of them from the same data key. -/
structure Schema.Promotes (current next : Schema) : Prop where
  version : next.version = current.version + 1
  kept : ∀ field spec, current.fields.get? field = some spec →
    next.fields.get? field = some spec
  added : ∀ field spec, next.fields.get? field = some spec → current.fields.get? field = none →
    ∃ key, spec.promotedFrom = some ⟨key, next.version⟩
  apart : ∀ f g key first second, current.fields.get? f = none → current.fields.get? g = none →
    next.fields.get? f = some first → next.fields.get? g = some second →
    first.promotedFrom = some ⟨key, next.version⟩ →
    second.promotedFrom = some ⟨key, next.version⟩ → f = g

/-- The step that brings nodes to the version of a schema. -/
def Schema.lastPromotion (schema : Schema) : Promotion :=
  ⟨schema.name, Migrations.mappingAt schema schema.version⟩

namespace Validator

/-- A node of a type is checked at a site or below it. -/
def Reaches (validator : Validator) (site : Site) (name : String) : Prop :=
  ∃ found, validator.Checked site found ∧ typeAt? found.value = some (.string name)

/-- A list of nodes at a site or below it holds a node of a type, as an element or below one. -/
def Lists (validator : Validator) (site : Site) (name : String) : Prop :=
  ∃ owner field place value, validator.Checked site owner ∧
    validator.Below owner (owner.element field place value) ∧
    validator.Reaches (owner.element field place value) name

theorem Lists.trans {validator : Validator} {site middle : Site} {name : String}
    (first : validator.Checked site middle) (h : validator.Lists middle name) :
    validator.Lists site name := by
  obtain ⟨owner, field, place, value, checked, below, reaches⟩ := h
  exact ⟨owner, field, place, value, first.trans checked, below, reaches⟩

/-- What an element reaches is listed. -/
theorem Lists.of_reaches {validator : Validator} {site : Site} {name field : String} {place : Nat}
    {value : Json} (below : validator.Below site (site.element field place value))
    (reaches : validator.Reaches (site.element field place value) name) :
    validator.Lists site name :=
  ⟨site, field, place, value, .start, below, reaches⟩

/-- What is listed is reached. -/
theorem Lists.reaches {validator : Validator} {site : Site} {name : String}
    (h : validator.Lists site name) : validator.Reaches site name := by
  obtain ⟨owner, field, place, value, checked, below, found, later, typed⟩ := h
  exact ⟨found, (checked.step below).trans later, typed⟩

/-- A field that is excused at the later version of a type is excused at an earlier one, with as
much in `data`. -/
theorem coversLegacy_of_later {validator other : Validator}
    (same : other.settings = validator.settings) {current next : Schema}
    (later : current.version < next.version) {spec : FieldSpec} {data kept : Option (KeyMap Json)}
    (h : validator.coversLegacy next spec data = true)
    (grown : ∀ key value, data.bind (·.get? key) = some value →
      kept.bind (·.get? key) = some value) :
    other.coversLegacy current spec kept = true := by
  obtain ⟨legacy, origin, promoted, recent, left⟩ :=
    coversLegacy_iff.1 (coversLegacy_of_grown h grown)
  refine coversLegacy_iff.2 ⟨same ▸ legacy, origin, promoted, ?_, left⟩
  have := UInt32.lt_iff_toNat_lt.1 later
  rw [same]
  omega

end Validator

/-! ## One version on -/

namespace Schema.Promotes

variable {current next : Schema}

/-- The next version is a later one, when a registry has both in turn. -/
theorem forward (promotes : current.Promotes next) {registry upgraded : Registry}
    (evolves : registry.EvolvesTo upgraded) (known : registry.get? next.name = some current)
    (found : upgraded.get? next.name = some next) : current.version < next.version := by
  obtain ⟨same, found', grown⟩ := evolves next.name current known
  obtain rfl : next = same := Option.some.inj (found.symm.trans found')
  rcases grown.version with same | later
  · have succ := promotes.version
    grind
  · exact later

/-- The step to the next version moves none of the fields that were there before. -/
theorem kept_not_mapped (promotes : current.Promotes next) (before : current.flaw? = none)
    (later : current.version < next.version) {field : String} {spec : FieldSpec}
    (known : current.fields.get? field = some spec) (key : String) :
    (key, field) ∉ (Migrations.mappingAt next next.version).pairs := by
  intro mem
  obtain ⟨found, declared, promoted⟩ := Migrations.promoted_of_mem_mappingAt mem
  obtain rfl : spec = found :=
    Option.some.inj ((promotes.kept field spec known).symm.trans declared)
  exact UInt32.not_lt.2 (promoted_by_now before known promoted) later

/-- The step to the next version moves all fields that it adds. -/
theorem exists_mapped (promotes : current.Promotes next) (before : current.flaw? = none)
    (later : current.version < next.version) {field : String} {spec : FieldSpec}
    (declared : next.fields.get? field = some spec) (new : current.fields.get? field = none) :
    ∃ key, (key, field) ∈ (Migrations.mappingAt next next.version).pairs := by
  obtain ⟨key, promoted⟩ := promotes.added field spec declared new
  refine ⟨key, Migrations.mem_mappingAt_of_only declared promoted ?_⟩
  intro other found declared' promoted'
  have new' : current.fields.get? other = none := by
    apply Option.eq_none_iff_forall_ne_some.2
    intro old known
    obtain rfl : old = found :=
      Option.some.inj ((promotes.kept other old known).symm.trans declared')
    exact UInt32.not_lt.2 (promoted_by_now before known promoted') later
  exact promotes.apart other field key found spec new' new declared' declared promoted' promoted

/-- A node that obeys the next version obeys the current one once its new fields have been moved to
`data`. -/
theorem obeys_demoted (promotes : current.Promotes next) (evolves : current.EvolvesTo next)
    (before : current.flaw? = none) (later : current.version < next.version)
    {validator other : Validator} (same : other.settings = validator.settings)
    {node moved : Node} (obeys : validator.Obeys next node)
    (content : moved.contentClass = node.contentClass) (value : moved.value? = node.value?)
    (demoted :
      Mapping.Demoted (Migrations.mappingAt next next.version).pairs node.head moved.head) :
    other.Obeys current moved where
  content := content.trans (obeys.content.trans evolves.contentClass)
  value found there := evolves.kindOfValue ▸ obeys.value found (value ▸ there)
  fields field found there := by
    obtain ⟨present, unmapped⟩ := demoted.get?_fields there
    obtain ⟨spec, declared, fits⟩ := obeys.fields field found present
    cases known : current.fields.get? field with
    | none =>
      obtain ⟨key, mem⟩ := promotes.exists_mapped before later declared known
      exact absurd mem (unmapped key)
    | some old =>
      obtain rfl : old = spec :=
        Option.some.inj ((promotes.kept field old known).symm.trans declared)
      exact ⟨old, rfl, fits⟩
  required field spec known required absent := by
    have gone : node.field? field = none := by
      apply Option.eq_none_iff_forall_ne_some.2
      intro found present
      have left : moved.field? field = some found := by
        rw [Node.field?, demoted.fields, Mapping.get?_unmapped, if_neg]
        · exact present
        · intro mapped
          obtain ⟨⟨key, _⟩, mem, same⟩ := List.any_eq_true.1 mapped
          obtain rfl := eq_of_beq same
          exact promotes.kept_not_mapped before later known key mem
      rw [absent] at left
      cases left
    have excused := obeys.required field spec (promotes.kept field spec known) required gone
    refine Validator.coversLegacy_of_later same later excused fun key found here => ?_
    rw [demoted.data, here, Option.some_or]

end Schema.Promotes

/-! ## Whole trees -/

namespace Validator

variable {registry upgraded : Registry} {settings : ValidationSettings} {current next : Schema}
  {validator : Validator}

/-- A tree below which no node of a type is checked has no node of the type. -/
theorem typeName_ne_of_unreached (sound : validator.registry.Sound) {site : Site} {node : Node}
    (h : validator.WellFormedAt site.depth node) (value : site.value = node.toJson) {name : String}
    (unreached : ¬validator.Reaches site name) {places : List Nat} {found : Node}
    (there : node.at? places = some found) : found.typeName ≠ name := by
  intro typed
  obtain ⟨below, checked, same, -⟩ := exists_checked_at? sound h value there
  refine unreached ⟨below, checked, ?_⟩
  rw [typeAt?_of_read (same ▸ Node.map?_toJson found),
    Node.get?_toMap_type ((h.at? there).unshadowed sound), typed]

/-- A node keeps the rules of its type in the earlier registry once the new fields have been moved
to `data`, if it is of the type that has changed. What is left of its fields is as it was. -/
theorem exists_obeys_demoted (sound : registry.Sound)
    (known : registry.get? next.name = some current) {earlier later : UInt32}
    (entered : registry.register next = .ok (.upgraded earlier later, upgraded))
    (promotes : current.Promotes next) {schema : Schema} {node : Node}
    (registered : upgraded.get? node.typeName = some schema)
    (obeys : Obeys ⟨upgraded, settings⟩ schema node)
    (goes : next.lastPromotion.Goes next.lastPromotion.mapping.demote node) :
    let moved := node.mapHeads (next.lastPromotion.after next.lastPromotion.mapping.demote)
    ∃ before, registry.get? node.typeName = some before ∧ before.EvolvesTo schema ∧
      Obeys ⟨registry, settings⟩ before moved ∧
      ∀ field spec value, before.fields.get? field = some spec →
        moved.field? field = some value →
        schema.fields.get? field = some spec ∧ node.field? field = some value := by
  intro moved
  have head : moved.head =
      next.lastPromotion.after next.lastPromotion.mapping.demote node.head :=
    Node.head_mapHeads _ node
  rw [Registry.get?_eq_of_upgraded entered] at registered
  split at registered
  · rename_i typed
    obtain rfl := Option.some.inj registered
    have demoted : Mapping.Demoted next.lastPromotion.mapping.pairs node.head moved.head :=
      head ▸ Promotion.demoted_after typed (goes [] node rfl typed)
    have found := Registry.get?_of_upgraded entered
    have later := promotes.forward (sound.evolvesTo entered) known found
    obtain ⟨same, found', evolves⟩ := sound.evolvesTo entered next.name current known
    obtain rfl : next = same := Option.some.inj (found.symm.trans found')
    have sameSettings : (⟨registry, settings⟩ : Validator).settings =
        (⟨upgraded, settings⟩ : Validator).settings := rfl
    refine ⟨current, typed ▸ known, evolves, ?_, ?_⟩
    · exact promotes.obeys_demoted evolves (sound _ _ known).2.2 later sameSettings obeys
        (Node.contentClass_mapHeads _ node) (Node.value?_mapHeads _ node) demoted
    · intro field spec value declared present
      exact ⟨promotes.kept field spec declared, (demoted.get?_fields present).1⟩
  · rename_i other
    have same : moved.head = node.head := head.trans (Promotion.after_of_ne other)
    have fields : ∀ field, moved.field? field = node.field? field := fun field => by
      rw [Node.field?, same, Node.field?]
    refine ⟨schema, registered, .refl schema, ⟨?_, ?_, ?_, ?_⟩, ?_⟩
    · exact (Node.contentClass_mapHeads _ node).trans obeys.content
    · exact fun value there => obeys.value value ((Node.value?_mapHeads _ node).symm.trans there)
    · intro field value present
      exact obeys.fields field value ((fields field).symm.trans present)
    · intro field spec declared required absent
      rw [same]
      exact obeys.required field spec declared required ((fields field).symm.trans absent)
    · intro field spec value declared present
      exact ⟨declared, (fields field).symm.trans present⟩

/-- What a container accepts with the later registry, it accepts with the earlier one, when the type
of the child was registered before. -/
theorem Accepts.before (grows : registry.EvolvesTo upgraded) {before schema own : Schema}
    (same : schema.childClass = before.childClass) {node moved : Node}
    (typeName : moved.typeName = node.typeName)
    (registered : registry.get? moved.typeName = some own)
    (h : Accepts ⟨upgraded, settings⟩ schema node) : Accepts ⟨registry, settings⟩ before moved := by
  obtain ⟨later, known, accepts⟩ := h
  obtain ⟨found, known', grown⟩ := grows _ _ registered
  rw [typeName] at known'
  obtain rfl : later = found := Option.some.inj (known.symm.trans known')
  refine ⟨own, registered, ?_⟩
  rw [← same, ← grown.category]
  exact accepts

/-- The nodes of an element of a list are not of a type that no list holds a node of. -/
theorem typeName_ne_of_unlisted (sound : validator.registry.Sound) {site : Site} {field : String}
    {place : Nat} {element : Node}
    (below : validator.Below site (site.element field place element.toJson))
    (inside : validator.WellFormedAt (site.depth + 1) element) {name : String}
    (unlisted : ¬validator.Lists site name) {places : List Nat} {found : Node}
    (there : element.at? places = some found) : found.typeName ≠ name := by
  have fine : validator.WellFormedAt (site.element field place element.toJson).depth element :=
    inside
  exact typeName_ne_of_unreached sound fine rfl
    (fun reaches => unlisted (.of_reaches below reaches)) there

/-- A tree that was well formed for the upgraded registry is well formed for the earlier one once
the new fields of the nodes of the type have been moved to `data`, when no list of nodes holds a
node of the type. -/
theorem wellFormedAt_demoted (sound : registry.Sound)
    (known : registry.get? next.name = some current) {earlier later : UInt32}
    (entered : registry.register next = .ok (.upgraded earlier later, upgraded))
    (promotes : current.Promotes next) {levels : Nat} {site : Site} {node : Node}
    (deep : levels + site.depth = settings.maxDepth) (value : site.value = node.toJson)
    (h : WellFormedAt ⟨upgraded, settings⟩ site.depth node)
    (goes : next.lastPromotion.Goes next.lastPromotion.mapping.demote node)
    (unlisted : ¬Lists ⟨upgraded, settings⟩ site next.name) :
    WellFormedAt ⟨registry, settings⟩ site.depth
      (node.mapHeads (next.lastPromotion.after next.lastPromotion.mapping.demote)) := by
  have after := sound.register entered
  -- By how many levels are left; below an element of a list no node is of the type.
  induction levels generalizing site node with
  | zero =>
    have : site.depth < settings.maxDepth := h.shallow
    omega
  | succ levels ih =>
    have unshadowed := h.unshadowed after
    have shallow := h.shallow
    obtain ⟨schema, registered⟩ := h.registered
    obtain ⟨obeys, lists, children⟩ := h.of_registered registered
    obtain ⟨before, registered', evolves, obeys', kept⟩ :=
      exists_obeys_demoted sound known entered promotes registered obeys goes
    have opens : Opens ⟨upgraded, settings⟩ site schema node.toMap :=
      ⟨shallow, by rw [value, Node.map?_toJson], (schemaOf?_toMap unshadowed).trans registered⟩
    have sameType : ∀ node : Node, (node.mapHeads (next.lastPromotion.after
        next.lastPromotion.mapping.demote)).typeName = node.typeName := fun node => by
      rw [Node.typeName, Node.head_mapHeads, Promotion.typeName_after_demote]
      rfl
    rw [WellFormedAt]
    refine ⟨shallow, before, (sameType node).symm ▸ registered', obeys', ?_, ?_⟩
    · intro field spec items declared kind present item mem
      obtain ⟨declared, present⟩ := kept field spec _ declared present
      obtain ⟨place, found⟩ := List.mem_iff_getElem?.1 mem
      obtain ⟨element, rfl, fine⟩ := lists field spec items declared kind present item mem
      have notBase := Schema.declared_not_base (after _ schema registered).2.2 declared
      have array := (Node.get?_toMap_of_not_base unshadowed notBase).trans present
      have below := Below.element opens declared kind array found
      have untyped : ∀ places found, element.at? places = some found →
          found.typeName ≠ next.name := fun _ _ there =>
        typeName_ne_of_unlisted after below fine unlisted there
      have unmoved : element.mapHeads (next.lastPromotion.after
          next.lastPromotion.mapping.demote) = element :=
        Node.mapHeads_eq_self fun places found there =>
          Promotion.after_of_ne (untyped places found there)
      refine ⟨element, rfl, ?_⟩
      rw [← unmoved]
      exact ih (by simp only [Site.element]; omega) rfl fine
        (fun places found there typed => absurd typed (untyped places found there))
        fun listed => unlisted (.of_reaches below listed.reaches)
    · intro child mem
      rw [Node.children_mapHeads] at mem
      obtain ⟨child, childMem, rfl⟩ := List.mem_map.1 mem
      obtain ⟨place, found⟩ := List.mem_iff_getElem?.1 childMem
      obtain ⟨fine, accepts⟩ := children child childMem
      have below := opens.below_child unshadowed found
      have fine' := ih (by simp only [Site.child]; omega) rfl fine
        ((Promotion.goes_iff.1 goes).2 child childMem)
        fun listed => unlisted (listed.trans (Checked.start.step below))
      obtain ⟨own, registered⟩ := fine'.registered
      exact ⟨fine', accepts.before (sound.evolvesTo entered) evolves.childClass (sameType child)
        registered⟩

end Validator

/-! ## The sample -/

namespace Sample

theorem promotes_captioned : figure.Promotes captioned where
  version := rfl
  kept field spec known := by
    have other : field ≠ "caption" := by
      rintro rfl
      cases known
    rw [get?_captioned, if_neg other, known]
  added field spec declared new := by
    rw [get?_captioned, new] at declared
    split at declared
    · obtain rfl := Option.some.inj declared
      exact ⟨"caption", rfl⟩
    · cases declared
  apart f g key first second new new' declared declared' _ _ := by
    have caption : ∀ {field spec}, figure.fields.get? field = none →
        captioned.fields.get? field = some spec → field = "caption" := by
      intro field spec new declared
      rw [get?_captioned, new] at declared
      split at declared
      · assumption
      · cases declared
    rw [caption new declared, caption new' declared']

/-- A figure with its caption in its place, and its label still in `data`. -/
def captionedFigure : Node :=
  .empty
    { typeName := "Figure"
      fields := KeyMap.empty.insert "caption" (.string "b")
      data := some (KeyMap.empty.insert "label" (.string "a")) }

/-- A box with a figure as its child and an empty box as an item. -/
def boxWith (figure : Node) : Node :=
  .container
    { typeName := "Box"
      fields := KeyMap.empty.insert "items"
        (.array [(Node.container { typeName := "Box" } []).toJson]) }
    [figure]

/-- The item of the box is the only value in a list, and it is no figure. -/
theorem not_lists_boxWith :
    ¬Validator.Lists ⟨upgradedTo captioned, {}⟩ (Site.root (boxWith captionedFigure).toJson)
      "Figure" := by
  rintro ⟨owner, field, place, value, checked, below, found, deeper, typed⟩
  have mem := Validator.mem_within_root_iff.2 ((checked.step below).trans deeper)
  have sites : Validator.within ⟨upgradedTo captioned, {}⟩ 256
      (Site.root (boxWith captionedFigure).toJson) =
    [Site.root (boxWith captionedFigure).toJson,
      (Site.root (boxWith captionedFigure).toJson).element "items" 0
        (Node.container { typeName := "Box" } []).toJson,
      (Site.root (boxWith captionedFigure).toJson).child box 0 captionedFigure.toJson] := by rfl
  have boxed : ∀ value, Validator.typeAt? value = some (.string "Box") →
      Validator.typeAt? value ≠ some (.string "Figure") := by
    intro value box figure
    simp [box] at figure
  rw [show ValidationSettings.maxDepth {} = 256 from rfl, sites] at mem
  simp only [List.mem_cons, List.not_mem_nil, or_false] at mem
  rcases mem with rfl | rfl | rfl
  · exact boxed _ rfl typed
  · exact boxed _ rfl typed
  · -- A child of the root lies one step away from it, an element at least two.
    have longer := deeper.path_suffix.length_le
    simp [Site.element, Site.child, Path.element, Path.child, Path.push, Site.root, Path.root]
      at longer

end Sample

/-! ## Downgrades -/

namespace Migrations

variable {registry upgraded : Registry} {settings : ValidationSettings} {current next : Schema}

/-- A downgrade by one version demotes by the step between the versions. -/
theorem downgrade_eq_ok_of_succ (sound : upgraded.Sound)
    (known : upgraded.get? next.name = some next) {earlier : UInt32}
    (version : next.version = earlier + 1) (later : earlier < next.version)
    {tree downgraded : Node}
    (done : ((ofRegistry upgraded).result.downgrade tree next.name next.version earlier).result =
      .ok downgraded) : (next.lastPromotion.demote tree).result = .ok downgraded := by
  have one : next.version.toNat - earlier.toNat = 1 := by
    have succ : next.version.toNat = (earlier.toNat + 1) % 2 ^ 32 :=
      (congrArg UInt32.toNat version).trans (UInt32.toNat_add earlier 1)
    have := UInt32.lt_iff_toNat_lt.1 later
    omega
  rw [downgrade, one] at done
  obtain ⟨mapping, demoted, declared, demotes, rest⟩ := downgradeBy_succ_eq_ok done
  obtain rfl := mapping?_ofRegistry sound known declared
  cases rest
  rwa [UInt32.sub_add_cancel] at demotes

/-- **A downgraded document is valid for the earlier reader.** A type gets a new version, which
keeps all fields as they were and adds fields that were promoted in it, from data keys of their own.
When a document is accepted with the new version, no list of nodes in it holds a node of the type,
and the derived step brings its tree back to the version before, then the object of that tree is
accepted as that tree by the registry from before, with the same settings. -/
theorem downgrade_accepted (reachable : registry.Reachable)
    (known : registry.get? next.name = some current) {earlier later : UInt32}
    (entered : registry.register next = .ok (.upgraded earlier later, upgraded))
    (promotes : current.Promotes next) {raw : Json} (canonical : raw.Canonical) {tree : Node}
    (accepted : (Validator.validate ⟨upgraded, settings⟩ raw).result = .ok tree)
    (unlisted : ¬Validator.Lists ⟨upgraded, settings⟩ (Site.root raw) next.name)
    {downgraded : Node}
    (done : ((ofRegistry upgraded).result.downgrade tree next.name next.version
      current.version).result = .ok downgraded) :
    (Validator.validate ⟨registry, settings⟩ downgraded.toJson).result = .ok downgraded := by
  have sound := reachable.sound
  have after := sound.register entered
  obtain ⟨rfl, wellFormed⟩ := (Validator.result_eq_ok_iff_wellFormed after canonical).1 accepted
  have found := Registry.get?_of_upgraded entered
  have forward := promotes.forward (sound.evolvesTo entered) known found
  have demoted := downgrade_eq_ok_of_succ after found promotes.version forward done
  have tidy := Promotion.tidy_demote (wellFormed.tidy after canonical) demoted
  obtain ⟨rfl, goes, -⟩ := Promotion.run_eq_ok demoted
  exact (Validator.result_eq_ok_iff_wellFormed sound (Node.tidy_iff_canonical.1 tidy).2).2
    ⟨rfl, Validator.wellFormedAt_demoted sound known entered promotes (Nat.add_zero _) rfl
      wellFormed goes unlisted⟩

/-- A figure with a caption is brought back to the version without captions, inside of a box. -/
theorem downgrade_accepted_boxed :
    Sample.registry.Reachable ∧ Sample.registry.get? "Figure" = some Sample.figure ∧
      Sample.registry.register Sample.captioned =
        .ok (.upgraded 2 3, Sample.upgradedTo Sample.captioned) ∧
      Sample.figure.Promotes Sample.captioned ∧
      (Sample.boxWith Sample.captionedFigure).toJson.Canonical ∧
      (Validator.validate ⟨Sample.upgradedTo Sample.captioned, {}⟩
        (Sample.boxWith Sample.captionedFigure).toJson).result =
          .ok (Sample.boxWith Sample.captionedFigure) ∧
      ¬Validator.Lists ⟨Sample.upgradedTo Sample.captioned, {}⟩
        (Site.root (Sample.boxWith Sample.captionedFigure).toJson) "Figure" ∧
      ((ofRegistry (Sample.upgradedTo Sample.captioned)).result.downgrade
        (Sample.boxWith Sample.captionedFigure) "Figure" 3 2).result =
          .ok (Sample.boxWith Sample.uncaptionedFigure) ∧
      (Validator.validate ⟨Sample.registry, {}⟩
        (Sample.boxWith Sample.uncaptionedFigure).toJson).result =
          .ok (Sample.boxWith Sample.uncaptionedFigure) := by
  have known : Sample.registry.get? "Figure" = some Sample.figure := by rfl
  have canonical : (Sample.boxWith Sample.captionedFigure).toJson.Canonical := by decide
  have accepted : (Validator.validate ⟨Sample.upgradedTo Sample.captioned, {}⟩
      (Sample.boxWith Sample.captionedFigure).toJson).result =
        .ok (Sample.boxWith Sample.captionedFigure) := by rfl
  have done : ((ofRegistry (Sample.upgradedTo Sample.captioned)).result.downgrade
      (Sample.boxWith Sample.captionedFigure) "Figure" 3 2).result =
        .ok (Sample.boxWith Sample.uncaptionedFigure) := by rfl
  exact ⟨Sample.reachable_registry, known, Sample.register_captioned, Sample.promotes_captioned,
    canonical, accepted, Sample.not_lists_boxWith, done,
    downgrade_accepted Sample.reachable_registry known Sample.register_captioned
      Sample.promotes_captioned canonical accepted Sample.not_lists_boxWith done⟩

end Migrations
end DocTree
