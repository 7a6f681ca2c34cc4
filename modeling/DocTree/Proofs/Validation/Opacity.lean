import DocTree.Proofs.Validation.Acceptance
import DocTree.Proofs.Validation.Forms

/-!
# What validation does not look into

Two documents get the same violations and the same notices when they differ only inside `data`,
apart from the keys that fields were promoted from, and inside objects that are not gone into,
because their type is not known or they lie at the depth limit.

## Main definitions

* `Validator.Alike` — two values differ only where validation does not look.

## Main statements

* `Validator.Alike.insert_array`, `Validator.Alike.insert_data`, `Validator.Alike.insert_type` —
  ways to change an object that do not show.
* `Validator.Alike.typeAt?_eq` — such values have the same type.
* `Validator.Alike.read_check` — checking them finds the same.
* `Validator.alike_same_report` — validating them reports the same, and accepts both or neither.
-/

namespace DocTree
namespace Validator

variable {validator : Validator} {levels : Nat} {value other : Json}

/-- Two values, checked with so many levels left, that differ only where validation does not look:
inside objects at the depth limit or without a registered type, apart from what stands under `type`,
and inside the `data` of checked objects, apart from the keys of promoted fields. -/
inductive Alike (validator : Validator) : (levels : Nat) → Json → Json → Prop
  | same {levels : Nat} {value : Json} : Alike validator levels value value
  | closed {levels : Nat} {value other : Json} {object map : KeyMap Json} :
      value.map? = some object → other.map? = some map →
      levels = 0 ∨ validator.schemaOf? object = none → object.get? "type" = map.get? "type" →
      Alike validator levels value other
  | opened {levels : Nat} {value other : Json} {object map : KeyMap Json} {schema : Schema} :
      value.map? = some object → other.map? = some map →
      validator.schemaOf? object = some schema → schema.SameForm object map →
      (∀ (key : String) (place : Nat) (item instead : Json), schema.HoldsNodes key →
        (itemsAt object key)[place]? = some item → (itemsAt map key)[place]? = some instead →
        Alike validator levels item instead) →
      Alike validator (levels + 1) value other

/-! ## Types -/

theorem typeOf_congr {object map : KeyMap Json} (same : object.get? "type" = map.get? "type") :
    validator.typeOf object = validator.typeOf map := by
  rw [typeOf, typeOf, same]

theorem schemaOf?_congr {object map : KeyMap Json} (same : object.get? "type" = map.get? "type") :
    validator.schemaOf? object = validator.schemaOf? map := by
  rw [schemaOf?, schemaOf?, same]

theorem Alike.typeAt?_eq (sound : validator.registry.Sound)
    (alike : validator.Alike levels value other) : typeAt? value = typeAt? other := by
  cases alike with
  | same => rfl
  | closed read read' _ type => rw [typeAt?_of_read read, typeAt?_of_read read', type]
  | opened read read' known form =>
    have flawless := (schemaOf?_eq_some sound known).2.2
    rw [typeAt?_of_read read, typeAt?_of_read read', form.type_eq flawless]

/-! ## Setting one key -/

/-- Objects are alike when they differ in one array of nodes, and the nodes there are alike. -/
theorem Alike.insert_array (sound : validator.registry.Sound) {object : KeyMap Json} {key : String}
    {items others : List Json} {schema : Schema}
    (known : validator.schemaOf? (object.insert key (.array items)) = some schema)
    (nodes : schema.HoldsNodes key) (length : items.length = others.length)
    (below : ∀ (place : Nat) (item instead : Json), items[place]? = some item →
      others[place]? = some instead → validator.Alike levels item instead) :
    validator.Alike (levels + 1) (.ofMap (object.insert key (.array items)))
      (.ofMap (object.insert key (.array others))) := by
  have flawless := (schemaOf?_eq_some sound known).2.2
  refine .opened (Json.map?_ofMap _) (Json.map?_ofMap _) known
    (.insert_array flawless object nodes length) ?_
  intro k place item instead _ found found'
  rw [itemsAt_insert] at found found'
  split at found
  · rename_i same
    rw [if_pos same] at found'
    exact below place item instead found found'
  · rename_i other
    rw [if_neg other, found] at found'
    exact Option.some.inj found' ▸ .same

/-- Objects are alike when they differ in `data` only, and there not in keys of promoted fields. -/
theorem Alike.insert_data (sound : validator.registry.Sound) {object data instead : KeyMap Json}
    {schema : Schema}
    (known : validator.schemaOf? (object.insert "data" (.ofMap data)) = some schema)
    (keys : ∀ field spec origin, schema.fields.get? field = some spec →
      spec.promotedFrom = some origin →
      data.contains origin.dataKey = instead.contains origin.dataKey) :
    validator.Alike (levels + 1) (.ofMap (object.insert "data" (.ofMap data)))
      (.ofMap (object.insert "data" (.ofMap instead))) := by
  have flawless := (schemaOf?_eq_some sound known).2.2
  have data : schema.SameData (some (.ofMap data)) (some (.ofMap instead)) :=
    .objects (Json.map?_ofMap _) (Json.map?_ofMap _) keys
  refine .opened (Json.map?_ofMap _) (Json.map?_ofMap _) known
    (.insert_data flawless object data) ?_
  intro k place item other nodes found found'
  have notData : k ≠ "data" := (nodes.ne flawless (by decide) (by decide)).symm
  rw [itemsAt, KeyMap.get?_insert, if_neg notData] at found found'
  exact Option.some.inj (found.symm.trans found') ▸ .same

/-- Objects of a type that is not known are alike. -/
theorem Alike.insert_type {object other : KeyMap Json} {name : String}
    (unknown : validator.registry.get? name = none) :
    validator.Alike levels (.ofMap (object.insert "type" (.string name)))
      (.ofMap (other.insert "type" (.string name))) := by
  have named : ∀ object : KeyMap Json, (object.insert "type" (.string name)).get? "type" =
      some (.string name) := fun object => KeyMap.get?_insert_self ..
  refine .closed (Json.map?_ofMap _) (Json.map?_ofMap _) (.inr ?_) ((named _).trans (named _).symm)
  rw [schemaOf?, named]
  exact unknown

/-! ## Findings -/

/-- An object that is not gone into is refused for its depth or its type, whatever else it holds. -/
theorem check_congr_of_closed {object map : KeyMap Json} (read : value.map? = some object)
    (read' : other.map? = some map) (closed : levels = 0 ∨ validator.schemaOf? object = none)
    (type : object.get? "type" = map.get? "type") (path : Path) :
    validator.check levels path value = validator.check levels path other := by
  cases levels with
  | zero =>
    rw [check, check, read, read']
    simp only [type]
  | succ levels =>
    have unknown := closed.resolve_left (Nat.succ_ne_zero levels)
    cases typed : validator.typeOf object with
    | ok schema =>
      rw [typeOf_eq_ok_iff.1 typed] at unknown
      cases unknown
    | error found =>
      rw [check, check, read, read']
      simp only [← typeOf_congr type, typed]

/-- Values that differ only where validation does not look are found the same fault with. -/
theorem Alike.read_check {α : Type} (view : Findings.View α) (sound : validator.registry.Sound)
    (alike : validator.Alike levels value other) (path : Path) :
    view.read (validator.check levels path value).findings =
      view.read (validator.check levels path other).findings := by
  induction alike generalizing path with
  | same => rfl
  | closed read read' closed type => rw [check_congr_of_closed read read' closed type]
  | opened read read' known form below ih =>
    have flawless := (schemaOf?_eq_some sound known).2.2
    have known' := (schemaOf?_congr (form.type_eq flawless)).symm.trans known
    rw [check_succ read known, check_succ read' known']
    refine read_checkNode_congr view form flawless ?_ ?_
    · intro field spec declared kind place item instead found found'
      exact ih field place item instead (.inr ⟨spec, declared, kind⟩) found found' _
    · intro place child instead found found'
      have alike := below "children" place child instead (.inl rfl) found found'
      exact read_checkChild_congr view (alike.typeAt?_eq sound)
        (ih "children" place child instead (.inl rfl) found found' _)

/-! ## Documents -/

/-- A document is accepted when it has no violation. -/
theorem accepted_iff (sound : validator.registry.Sound) {document : Json} :
    (∃ tree, (validator.validate document).result = .ok tree) ↔
      validator.violations document = [] := by
  rw [violations_eq]
  constructor
  · rintro ⟨tree, accepted⟩
    exact (result_eq_ok_iff.1 accepted).2
  · intro clean
    obtain ⟨tree, node⟩ := ((decides_verdict sound).clean .root document).2 clean
    exact ⟨tree, result_eq_ok_iff.2 ⟨node, clean⟩⟩

/-- **What validation does not look into does not matter.** Two documents that differ only there
have the same violations and the same notices, each in the same order, and both are accepted or
neither is. -/
theorem alike_same_report (reachable : validator.registry.Reachable) {document other : Json}
    (alike : validator.Alike validator.settings.maxDepth document other) :
    validator.violations document = validator.violations other ∧
      (validator.validate document).notices = (validator.validate other).notices ∧
      ((∃ tree, (validator.validate document).result = .ok tree) ↔
        ∃ tree, (validator.validate other).result = .ok tree) := by
  have sound := reachable.sound
  have violations : validator.violations document = validator.violations other := by
    have same := alike.read_check (.violations fun _ => true) sound .root
    simpa only [violations_eq, verdict, Findings.View.violations, List.filter_true] using same
  refine ⟨violations, alike.read_check .notices sound .root, ?_⟩
  rw [accepted_iff sound, accepted_iff sound, violations]

end Validator

namespace Sample

/-- A figure with some data. -/
def figureOf (data : KeyMap Json) : Json :=
  .ofMap ((KeyMap.empty.insert "type" (.string "Figure")).insert "data" (.ofMap data))

/-- A box around a figure and an object of a type that is not registered. -/
def haunted (data content : KeyMap Json) : Json :=
  .ofMap ((KeyMap.empty.insert "type" (.string "Box")).insert "children"
    (.array [figureOf data, .ofMap (content.insert "type" (.string "Ghost"))]))

/-- A haunted box whose figure has a label and nothing else in `data`. -/
def plainlyHaunted : Json := haunted (KeyMap.empty.insert "label" (.string "a")) .empty

/-- A haunted box whose figure has children in `data`, beside a label that is no text. -/
def oddlyHaunted : Json :=
  haunted ((KeyMap.empty.insert "label" .null).insert "children" (.array [.null]))
    (KeyMap.empty.insert "children" (.array [.null]))

theorem alike_haunted {data other : KeyMap Json}
    (same : data.contains "label" = other.contains "label") (content map : KeyMap Json) :
    validator.Alike validator.settings.maxDepth (haunted data content) (haunted other map) := by
  have sound : validator.registry.Sound := reachable_registry.sound
  have figures : validator.Alike 255 (figureOf data) (figureOf other) := by
    refine Validator.Alike.insert_data sound rfl ?_
    intro field spec origin declared promoted
    rw [(fields_figure declared).2] at promoted
    cases promoted
    exact same
  have ghosts : validator.Alike 255 (.ofMap (content.insert "type" (.string "Ghost")))
      (.ofMap (map.insert "type" (.string "Ghost"))) := .insert_type rfl
  refine Validator.Alike.insert_array sound rfl (.inl rfl) rfl ?_
  rintro (_ | _ | place) item instead found found'
  · cases found
    cases found'
    exact figures
  · cases found
    cases found'
    exact ghosts
  · cases found

end Sample

namespace Validator

/-- A label in `data` is read as such, whatever it is and whatever stands beside it, and an object
of a type that is not registered is refused for that, whatever it holds. -/
theorem alike_same_report_haunted :
    Sample.registry.Reachable ∧
      Sample.validator.Alike Sample.validator.settings.maxDepth Sample.plainlyHaunted
        Sample.oddlyHaunted ∧
      (Sample.validator.violations Sample.oddlyHaunted).map Violation.failure =
        [(Path.root.child 1, .unknownType)] ∧
      (Sample.validator.validate Sample.oddlyHaunted).notices =
        [.legacyKeyRead "Figure" "label" "label"] := by
  have labelled : (KeyMap.empty.insert "label" (Json.string "a")).contains "label" =
      ((KeyMap.empty.insert "label" .null).insert "children" (Json.array [.null])).contains
        "label" := by rfl
  have alike : Sample.validator.Alike Sample.validator.settings.maxDepth Sample.plainlyHaunted
      Sample.oddlyHaunted := Sample.alike_haunted labelled _ _
  obtain ⟨violations, notices, -⟩ := alike_same_report Sample.reachable_registry alike
  refine ⟨Sample.reachable_registry, alike, ?_, ?_⟩
  · rw [← violations]
    rfl
  · rw [← notices]
    rfl

end Validator
end DocTree
