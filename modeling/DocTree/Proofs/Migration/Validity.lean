import DocTree.Proofs.Engine.Entrances
import DocTree.Proofs.Migration.Moves

/-!
# Promoted documents

A promotion moves values that were never checked, because nothing in `data` is, to fields that are,
and takes keys of `data` away on which an absent field may rely. So a document that was accepted
need not be accepted after it. It is when every moved value fits its field, and no absent field
relied on a key that is gone.

## Main definitions

* `Validator.AdmitsMove` — what a promotion makes of a head suits the type.
* `Engine.Parsed` — the trees that an engine takes in.

## Main statements

* `Validator.wellFormedAt_mapHeads_iff` — when a promoted tree is well formed.
* `Engine.parseValue_promote_iff` — when a promoted document is accepted as it is.
-/

namespace DocTree
namespace Validator

variable {validator : Validator} {schema : Schema} {pairs : List (String × String)}
  {node next : Node} {depth : Nat}

/-! ## One node -/

/-- What a promotion makes of a head suits a type: each moved value fits its field, its elements
are well formed if the field is a list of nodes, and each required field that is still absent may
still be found in what is left of `data`. -/
structure AdmitsMove (validator : Validator) (schema : Schema) (pairs : List (String × String))
    (depth : Nat) (head : Head) : Prop where
  fits : ∀ field spec value, schema.fields.get? field = some spec →
    head.fields.get? field = none → Mapping.moved? pairs head.data field = some value →
    spec.kind.fits value = true
  listed : ∀ field spec items, schema.fields.get? field = some spec → spec.kind = .nodeList →
    head.fields.get? field = none →
    Mapping.moved? pairs head.data field = some (.array items) →
    ∀ item ∈ items, ∃ element : Node, element.toJson = item ∧
      validator.WellFormedAt (depth + 1) element
  required : ∀ field spec, schema.fields.get? field = some spec → spec.required = true →
    head.fields.get? field = none → Mapping.moved? pairs head.data field = none →
    validator.coversLegacy schema spec (Mapping.rest pairs head.data) = true

/-- A node obeys its type after a promotion when its moved fields fit, and its absent required
fields may still be found in `data`. -/
theorem Obeys.moved_iff (h : validator.Obeys schema node)
    (declared : ∀ pair ∈ pairs, ∃ spec, schema.fields.get? pair.2 = some spec)
    (content : next.contentClass = node.contentClass) (value : next.value? = node.value?)
    (moved : Mapping.Moved pairs node.head next.head) :
    validator.Obeys schema next ↔
      (∀ field spec value, schema.fields.get? field = some spec →
        node.head.fields.get? field = none →
        Mapping.moved? pairs node.head.data field = some value → spec.kind.fits value = true) ∧
      ∀ field spec, schema.fields.get? field = some spec → spec.required = true →
        node.head.fields.get? field = none → Mapping.moved? pairs node.head.data field = none →
        validator.coversLegacy schema spec (Mapping.rest pairs node.head.data) = true := by
  have fields : ∀ field, next.field? field =
      (node.head.fields.get? field).or (Mapping.moved? pairs node.head.data field) := moved.fields
  constructor
  · intro obeys
    constructor
    · intro field spec value known absent here
      have present : next.field? field = some value := by rw [fields, absent, here]; rfl
      obtain ⟨found, known', fits⟩ := obeys.fields field value present
      exact Option.some.inj (known'.symm.trans known) ▸ fits
    · intro field spec known required absent nothing
      have none : next.field? field = none := by rw [fields, absent, nothing]; rfl
      rw [← moved.data]
      exact obeys.required field spec known required none
  · rintro ⟨fits, required⟩
    refine ⟨content.trans h.content, fun found there => h.value found (value ▸ there), ?_, ?_⟩
    · intro field found present
      rw [fields] at present
      rcases Option.or_eq_some_iff.1 present with before | ⟨absent, here⟩
      · exact h.fields field found before
      · obtain ⟨key, mem, -⟩ := Mapping.moved?_eq_some here
        obtain ⟨spec, known⟩ := declared _ mem
        exact ⟨spec, known, fits field spec found known absent here⟩
    · intro field spec known must absent
      rw [fields] at absent
      obtain ⟨before, nothing⟩ := Option.or_eq_none_iff.1 absent
      rw [moved.data]
      exact required field spec known must before nothing

theorem Accepts.congr {child other : Node} (same : other.typeName = child.typeName) :
    validator.Accepts schema other ↔ validator.Accepts schema child := by
  rw [Accepts, Accepts, same]

/-- A node whose head was moved is well formed when the move suits its type, and its children are
well formed. -/
theorem wellFormedAt_moved_iff (h : validator.WellFormedAt depth node)
    (known : validator.registry.get? node.typeName = some schema)
    (declared : ∀ pair ∈ pairs, ∃ spec, schema.fields.get? pair.2 = some spec)
    {f : Head → Head} (typeName : ∀ head, (f head).typeName = head.typeName)
    (moved : Mapping.Moved pairs node.head (f node.head)) :
    validator.WellFormedAt depth (node.mapHeads f) ↔
      validator.AdmitsMove schema pairs depth node.head ∧
        ∀ child ∈ node.children, validator.WellFormedAt (depth + 1) (child.mapHeads f) := by
  have shallow := h.shallow
  obtain ⟨obeys, lists, children⟩ := h.of_registered known
  have sameType : ∀ node : Node, (node.mapHeads f).typeName = node.typeName := fun node => by
    rw [Node.typeName, Node.head_mapHeads, typeName]
    rfl
  have head : Mapping.Moved pairs node.head (node.mapHeads f).head :=
    (Node.head_mapHeads f node).symm ▸ moved
  have fields : ∀ field, (node.mapHeads f).field? field =
      (node.head.fields.get? field).or (Mapping.moved? pairs node.head.data field) := head.fields
  have own := obeys.moved_iff declared (Node.contentClass_mapHeads f node)
    (Node.value?_mapHeads f node) head
  rw [WellFormedAt]
  constructor
  · rintro ⟨-, again, registered', obeys', lists', children'⟩
    rw [sameType, known] at registered'
    obtain rfl := Option.some.inj registered'
    obtain ⟨fits, required⟩ := own.1 obeys'
    refine ⟨⟨fits, ?_, required⟩, ?_⟩
    · intro field spec items declared kind absent here
      exact lists' field spec items declared kind (by rw [fields, absent, here]; rfl)
    · intro child mem
      exact (children' _ (by rw [Node.children_mapHeads]; exact List.mem_map_of_mem mem)).1
  · rintro ⟨admits, below⟩
    refine ⟨shallow, schema, (sameType node).symm ▸ known,
      own.2 ⟨admits.fits, admits.required⟩, ?_, ?_⟩
    · intro field spec items declared kind present
      rw [fields] at present
      rcases Option.or_eq_some_iff.1 present with before | ⟨absent, here⟩
      · exact lists field spec items declared kind before
      · exact admits.listed field spec items declared kind absent here
    · intro child mem
      rw [Node.children_mapHeads] at mem
      obtain ⟨child, childMem, rfl⟩ := List.mem_map.1 mem
      exact ⟨below child childMem,
        (Accepts.congr (sameType child)).2 (children child childMem).2⟩

/-- To move nothing suits every node that obeys its type. -/
theorem AdmitsMove.nil (h : validator.Obeys schema node) :
    validator.AdmitsMove schema [] depth node.head where
  fits _ _ _ _ _ here := by cases here
  listed _ _ _ _ _ _ here := by cases here
  required field spec declared required absent _ := by
    rw [← (Mapping.Moved.nil node.head).data]
    exact h.required field spec declared required absent

/-! ## Whole trees -/

/-- A promoted tree is well formed when what was moved suits all nodes of the type. -/
theorem wellFormedAt_mapHeads_iff {promotion : Promotion}
    (known : validator.registry.get? promotion.typeName = some schema)
    (declared : ∀ pair ∈ promotion.mapping.pairs, ∃ spec, schema.fields.get? pair.2 = some spec)
    (h : validator.WellFormedAt depth node) (goes : promotion.Goes promotion.mapping.promote node) :
    validator.WellFormedAt depth (node.mapHeads (promotion.after promotion.mapping.promote)) ↔
      ∀ places found, node.at? places = some found → found.typeName = promotion.typeName →
        validator.AdmitsMove schema promotion.mapping.pairs (depth + places.length) found.head := by
  induction node using Node.inductChildren generalizing depth with
  | step node ih =>
    obtain ⟨here, below⟩ := Promotion.goes_iff.1 goes
    obtain ⟨found, registered⟩ := h.registered
    obtain ⟨obeys, -, children⟩ := h.of_registered registered
    have same := promotion.typeName_after
    have deeper : (∀ child ∈ node.children, validator.WellFormedAt (depth + 1)
          (child.mapHeads (promotion.after promotion.mapping.promote))) ↔
        ∀ child ∈ node.children, ∀ places found, child.at? places = some found →
          found.typeName = promotion.typeName → validator.AdmitsMove schema
            promotion.mapping.pairs (depth + (places.length + 1)) found.head := by
      refine forall₂_congr fun child mem => ?_
      rw [ih child mem (children child mem).1 (below child mem)]
      simp only [Nat.add_right_comm, ← Nat.add_assoc]
    rw [Node.forall_at?_iff (P := fun places found => found.typeName = promotion.typeName →
      validator.AdmitsMove schema promotion.mapping.pairs (depth + places) found.head), ← deeper]
    by_cases typed : node.typeName = promotion.typeName
    · obtain rfl : found = schema :=
        Option.some.inj (registered.symm.trans ((congrArg _ typed).trans known))
      rw [wellFormedAt_moved_iff h registered declared same
        (Promotion.moved_after typed (here typed))]
      exact and_congr_left fun _ => ⟨fun admits _ => admits, fun admits => admits typed⟩
    · have unmoved : Mapping.Moved [] node.head
          (promotion.after promotion.mapping.promote node.head) := by
        rw [Promotion.after_of_ne typed]
        exact .nil node.head
      rw [wellFormedAt_moved_iff h registered (List.forall_mem_nil _) same unmoved]
      exact and_congr_left fun _ => iff_of_true (.nil obeys) fun h => absurd h typed

end Validator

/-! ## The sample -/

namespace Sample

/-- An engine for boxes and figures. -/
def engine : Engine := { registry }

/-- Labels are moved to their place. -/
def labels : Mapping := .ofPairs [("label", "label")]

end Sample

/-! ## Engines -/

theorem Promotion.checkDeclared_eq_ok {promotion : Promotion} {registry : Registry}
    (h : promotion.checkDeclared registry = .ok ()) :
    ∃ schema, registry.get? promotion.typeName = some schema ∧
      ∀ pair ∈ promotion.mapping.pairs, ∃ spec, schema.fields.get? pair.2 = some spec := by
  unfold checkDeclared at h
  split at h
  · cases h
  · rename_i schema known
    split at h
    · cases h
    · rename_i declared
      refine ⟨schema, known, ?_⟩
      intro pair mem
      have found := List.find?_eq_none.1 declared pair.2 (List.mem_map_of_mem mem)
      exact KeyMap.contains_iff.1 (by simpa using found)

namespace Engine

variable {engine : Engine} {tree promoted : Node}

/-- The trees that an engine takes in, from texts and from values. -/
inductive Parsed (engine : Engine) (tree : Node) : Prop
  | text {text : String} : (engine.parse text).result = .ok tree → Parsed engine tree
  | value {value : Json} : value.Canonical → (engine.parseValue value).result = .ok tree →
      Parsed engine tree

/-- A tree that an engine takes in is well formed, and its object is canonical. -/
theorem Parsed.wellFormed (sound : engine.registry.Sound) (h : engine.Parsed tree) :
    engine.validator.WellFormedAt 0 tree ∧ tree.toJson.Canonical := by
  have accepted : ∃ raw : Json, raw.Canonical ∧
      (engine.validator.validate raw).result = .ok tree := by
    cases h with
    | text read =>
      unfold parse ingest at read
      cases parsed : Json.parse _ with
      | error fault =>
        rw [parsed] at read
        cases read
      | ok raw =>
        rw [parsed] at read
        refine ⟨raw, .of_parse parsed, ?_⟩
        cases raw with
        | object members => exact result_validate_eq_ok_iff.1 read
        | _ => cases read
    | @value raw canonical read =>
      refine ⟨raw, canonical, ?_⟩
      cases raw with
      | object members => exact result_validate_eq_ok_iff.1 read
      | _ => cases read
  obtain ⟨raw, canonical, accepted⟩ := accepted
  obtain ⟨rfl, wellFormed⟩ :=
    (Validator.result_eq_ok_iff_wellFormed sound canonical).1 accepted
  exact ⟨wellFormed, canonical⟩

/-- A move that an engine makes is one of declared fields. -/
theorem move_eq_ok {promotion : Promotion} {run : Node → Noted (Except PromotionError Node)}
    {moved : Node} (h : (engine.move promotion run tree).result = .ok moved) :
    ∃ schema, engine.registry.get? promotion.typeName = some schema ∧
      (∀ pair ∈ promotion.mapping.pairs, ∃ spec, schema.fields.get? pair.2 = some spec) ∧
      (run tree).result = .ok moved := by
  unfold move at h
  split at h
  · cases h
  · rename_i declared
    obtain ⟨schema, known, fields⟩ := Promotion.checkDeclared_eq_ok declared
    exact ⟨schema, known, fields, Except.mapError_eq_ok_iff.1 h⟩

/-- A promotion keeps objects canonical. -/
theorem canonical_promote {promotion : Promotion}
    (unshadowed : ∀ places found, tree.at? places = some found → found.head.Unshadowed)
    (canonical : tree.toJson.Canonical) (h : (promotion.promote tree).result = .ok promoted) :
    promoted.toJson.Canonical :=
  (Node.tidy_iff_canonical.1 <|
    Promotion.tidy_promote (Node.tidy_iff_canonical.2 ⟨unshadowed, canonical⟩) h).2

/-- **When a promoted document is accepted.** The object of a promoted tree is accepted, as that
tree, exactly when in all nodes of the type, at their depths, what was moved fits and no absent
field relied on what was taken from `data`. -/
theorem parseValue_promote_iff (reachable : engine.registry.Reachable)
    (parsed : engine.Parsed tree) {typeName : String} {mapping : Mapping}
    (done : (engine.promote tree typeName mapping).result = .ok promoted) :
    (engine.parseValue promoted.toJson).result = .ok promoted ↔
      ∀ schema, engine.registry.get? typeName = some schema →
        ∀ places node, tree.at? places = some node → node.typeName = typeName →
          engine.validator.AdmitsMove schema mapping.pairs places.length node.head := by
  have sound := reachable.sound
  obtain ⟨wellFormed, canonical⟩ := parsed.wellFormed sound
  obtain ⟨schema, known, declared, ran⟩ := move_eq_ok done
  have unshadowed : ∀ places found, tree.at? places = some found → found.head.Unshadowed :=
    fun places found there => (wellFormed.at? there).unshadowed sound
  have accepted : (engine.parseValue promoted.toJson).result = .ok promoted ↔
      engine.validator.WellFormedAt 0 promoted := by
    have object : engine.parseValue promoted.toJson = engine.validate promoted.toJson := rfl
    rw [object, result_validate_eq_ok_iff, Validator.result_eq_ok_iff_wellFormed sound
      (canonical_promote unshadowed canonical ran)]
    exact and_iff_right rfl
  obtain ⟨rfl, goes, -⟩ := Promotion.run_eq_ok ran
  rw [accepted, Validator.wellFormedAt_mapHeads_iff known declared wellFormed goes]
  simp only [Nat.zero_add]
  constructor
  · intro admits found registered
    obtain rfl : found = schema := Option.some.inj (registered.symm.trans known)
    exact admits
  · exact fun admits => admits schema known

/-- The sample is accepted once the labels of its figures have been moved: the move suits them. -/
theorem parseValue_promote_iff_boxed :
    Sample.engine.registry.Reachable ∧ Sample.engine.Parsed Sample.boxed ∧
      (Sample.engine.promote Sample.boxed "Figure" Sample.labels).result =
        .ok Sample.promotedBox ∧
      ∀ places node, Sample.boxed.at? places = some node → node.typeName = "Figure" →
        Sample.engine.validator.AdmitsMove Sample.figure Sample.labels.pairs places.length
          node.head := by
  have reachable : Sample.engine.registry.Reachable := Sample.reachable_registry
  have parsed : Sample.engine.Parsed Sample.boxed :=
    .value (show Sample.boxed.toJson.Canonical by decide) rfl
  have done : (Sample.engine.promote Sample.boxed "Figure" Sample.labels).result =
      .ok Sample.promotedBox := by rfl
  exact ⟨reachable, parsed, done,
    (parseValue_promote_iff reachable parsed done).1 rfl Sample.figure rfl⟩

/-- A figure whose `data` has a number as its label is accepted, and promoted without a conflict.
What comes of it is refused, for the label has to be a string. -/
theorem parseValue_promote_number :
    Sample.engine.registry.Reachable ∧
      Sample.engine.Parsed (Sample.earlyFigure (.number (.int 5))) ∧
      (Sample.engine.promote (Sample.earlyFigure (.number (.int 5))) "Figure"
        Sample.labels).result = .ok (Sample.lateFigure (.number (.int 5))) ∧
      ∃ report, (Sample.engine.parseValue (Sample.lateFigure (.number (.int 5))).toJson).result =
          .error (.invalid report) ∧
        report.violations.map Violation.failure = [(.root, .fieldType)] := by
  have parsed : Sample.engine.Parsed (Sample.earlyFigure (.number (.int 5))) :=
    .value (show (Sample.earlyFigure (.number (.int 5))).toJson.Canonical by decide) rfl
  exact ⟨Sample.reachable_registry, parsed, rfl, _, rfl, rfl⟩

end Engine
end DocTree
