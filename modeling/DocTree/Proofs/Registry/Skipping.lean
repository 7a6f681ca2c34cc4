import DocTree.Proofs.Node.Equality
import DocTree.Proofs.Registry.History
import DocTree.Proofs.Validation.Registration

/-!
# Skipped versions

A schema may be superseded by a second one, and this one by a third one. Then the third one may take
the place of the first one too, unless it requires a field that the second one introduced and no
longer tells where `data` had it: nothing asks for that when the second one is there, but it is
asked for when the second one is skipped.

## Main definitions

* `Schema.FallsBack` — the required fields that an earlier schema lacks may be found in `data`.
* `Schema.Forgets` — a required field has lost its data key.

## Main statements

* `Schema.Supersedes.trans_iff` — which schemas supersede what came before their predecessor.
* `Registry.exists_register_iff` — when a registry takes a schema.
* `Registry.register_skipping` — when a version can be skipped.
-/

namespace DocTree

/-! ## Equal schemas -/

theorem FieldSpec.parts_of_beq {x y : FieldSpec} (h : (x == y) = true) :
    x.kind = y.kind ∧ x.required = y.required ∧ x.promotedFrom = y.promotedFrom := by
  have parts : (x.kind == y.kind && (x.required == y.required &&
      (x.defaultValue == y.defaultValue && x.promotedFrom == y.promotedFrom))) = true := h
  simp only [Bool.and_eq_true, beq_iff_eq] at parts
  exact ⟨parts.1, parts.2.1, parts.2.2.2⟩

namespace Schema

variable {schema middle next : Schema}

/-- Equal schemas have the same parts, apart from the defaults of their fields, which are equal. -/
theorem parts_of_beq (h : (schema == next) = true) :
    schema.version = next.version ∧ schema.category = next.category ∧
      schema.contentClass = next.contentClass ∧ (schema.fields == next.fields) = true ∧
      schema.childClass = next.childClass ∧ schema.kindOfValue = next.kindOfValue := by
  have parts : (schema.name == next.name && (schema.version == next.version &&
      (schema.category == next.category && (schema.contentClass == next.contentClass &&
      (schema.fields == next.fields && (schema.childContentClass == next.childContentClass &&
      schema.valueKind == next.valueKind)))))) = true := h
  simp only [Bool.and_eq_true, beq_iff_eq] at parts
  obtain ⟨-, version, category, contentClass, fields, childClass, valueKind⟩ := parts
  exact ⟨version, category, contentClass, fields, congrArg (·.getD .any) childClass,
    congrArg (·.getD .string) valueKind⟩

/-- Equal schemas declare the same fields, with equal declarations. -/
theorem get?_of_beq (h : (schema == next) = true) (field : String) :
    (schema.fields.get? field == next.fields.get? field) = true :=
  KeyMap.beq_get? (parts_of_beq h).2.2.2.1 field

theorem exists_get?_of_beq (h : (schema == next) = true) {field : String} {spec : FieldSpec}
    (declared : schema.fields.get? field = some spec) :
    ∃ other, next.fields.get? field = some other ∧ (spec == other) = true := by
  have same := get?_of_beq h field
  rw [declared] at same
  cases found : next.fields.get? field with
  | none =>
    rw [found] at same
    cases same
  | some other => exact ⟨other, rfl, by rwa [found] at same⟩

/-! ## Skipped schemas -/

/-- A field that the schema requires and an earlier one lacks was promoted from `data`. -/
def FallsBack (schema earlier : Schema) : Prop :=
  ∀ field spec, schema.fields.get? field = some spec → earlier.fields.get? field = none →
    spec.required = true → ∃ origin, spec.promotedFrom = some origin

/-- The later schema requires a field, and no longer tells where `data` had it. -/
def Forgets (earlier later : Schema) (field : String) : Prop :=
  ∃ before origin after, earlier.fields.get? field = some before ∧
    before.promotedFrom = some origin ∧ later.fields.get? field = some after ∧
    after.required = true ∧ after.promotedFrom = none

/-- All that was kept twice is kept. -/
theorem Supersedes.kept (first : middle.Supersedes schema) (second : next.Supersedes middle) :
    schema.version < next.version ∧ next.category = schema.category ∧
      next.contentClass = schema.contentClass ∧ next.childClass = schema.childClass ∧
      (next.contentClass = .leaf → next.kindOfValue = schema.kindOfValue) ∧
      ∀ field spec, schema.fields.get? field = some spec →
        ∃ later, next.fields.get? field = some later ∧ spec.EvolvesTo later := by
  refine ⟨UInt32.lt_trans first.version second.version, second.category.trans first.category,
    second.contentClass.trans first.contentClass, second.childClass.trans first.childClass, ?_, ?_⟩
  · intro leaf
    exact (second.kindOfValue leaf).trans (first.kindOfValue (second.contentClass ▸ leaf))
  · intro field spec declared
    obtain ⟨between, declared, evolves⟩ := first.fields field spec declared
    obtain ⟨later, declared, evolves'⟩ := second.fields field between declared
    exact ⟨later, declared, evolves.trans evolves'⟩

/-- A schema supersedes what its predecessor superseded, if only the fields that came in between may
still be found in `data`. -/
theorem Supersedes.trans_iff (first : middle.Supersedes schema) (second : next.Supersedes middle) :
    next.Supersedes schema ↔ next.FallsBack schema := by
  obtain ⟨version, category, contentClass, childClass, kindOfValue, fields⟩ := first.kept second
  exact ⟨Supersedes.added, fun fallsBack =>
    ⟨version, category, contentClass, childClass, kindOfValue, fields, fallsBack⟩⟩

/-- When data keys are kept, what the middle schema introduced may still be found in `data`. -/
theorem FallsBack.of_keepsDataKeys (first : middle.Supersedes schema)
    (second : next.Supersedes middle) (keeps : middle.KeepsDataKeys next) :
    next.FallsBack schema := by
  intro field spec declared lacked required
  cases between : middle.fields.get? field with
  | none => exact second.added field spec declared between required
  | some before =>
    obtain ⟨later, declared', evolves⟩ := second.fields field before between
    obtain rfl : spec = later := Option.some.inj (declared.symm.trans declared')
    obtain ⟨origin, promoted⟩ := first.added field before between lacked (evolves.required required)
    obtain ⟨kept, promoted, -⟩ := keeps field before spec origin between declared required promoted
    exact ⟨kept, promoted⟩

/-- What supersedes a schema does so in all equal forms. -/
theorem Supersedes.of_beq (h : middle.Supersedes schema) (same : (middle == next) = true) :
    next.Supersedes schema := by
  obtain ⟨version, category, contentClass, -, childClass, kindOfValue⟩ := parts_of_beq same
  refine
    { version := version ▸ h.version
      category := category ▸ h.category
      contentClass := contentClass ▸ h.contentClass
      childClass := childClass ▸ h.childClass
      kindOfValue := fun leaf => kindOfValue ▸ h.kindOfValue (contentClass ▸ leaf)
      fields := ?_
      added := ?_ }
  · intro field spec declared
    obtain ⟨later, declared, evolves⟩ := h.fields field spec declared
    obtain ⟨other, declared, equal⟩ := exists_get?_of_beq same declared
    obtain ⟨kind, required, -⟩ := FieldSpec.parts_of_beq equal
    exact ⟨other, declared, kind ▸ evolves.kind, required ▸ evolves.required⟩
  · intro field spec declared lacked required
    have equal := get?_of_beq same field
    rw [declared] at equal
    cases found : middle.fields.get? field with
    | none =>
      rw [found] at equal
      cases equal
    | some other =>
      rw [found] at equal
      obtain ⟨-, required', promoted⟩ := FieldSpec.parts_of_beq equal
      exact promoted ▸ h.added field other found lacked (required' ▸ required)

theorem FallsBack.of_beq (same : (schema == next) = true) : next.FallsBack schema := by
  intro field spec declared lacked
  have equal := get?_of_beq same field
  rw [declared, lacked] at equal
  cases equal

/-- The only reason against skipping a schema is a required field that it introduced, and from which
the data key has been taken since. -/
theorem Supersedes.eq_newFieldRequired (first : middle.Supersedes schema)
    (second : next.Supersedes middle) {reason : Incompatibility}
    (refused : schema.incompatibility? next = some reason) :
    ∃ field, reason = .newFieldRequired field ∧ schema.fields.get? field = none ∧
      middle.Forgets next field := by
  obtain ⟨version, category, contentClass, childClass, kindOfValue, fields⟩ := first.kept second
  have kind : ¬(next.contentClass = .leaf ∧ next.kindOfValue ≠ schema.kindOfValue) :=
    fun h => h.2 (kindOfValue h.1)
  rw [incompatibility?, if_neg (UInt32.not_le.2 version), if_neg (not_not_intro category),
    if_neg (not_not_intro contentClass), if_neg (not_not_intro childClass), if_neg kind,
    Option.orElse_eq_orElse, Option.orElse_eq_or, Option.or_eq_some_iff] at refused
  -- The fields of the first schema have been kept, so that the reason is one of the others.
  have others := refused.resolve_left fun kept => by
    obtain ⟨⟨field, spec⟩, mem, broken⟩ := List.exists_of_findSome?_eq_some kept
    have fine : spec.incompatibility? (next.fields.get? field) field = none :=
      FieldSpec.incompatibility?_eq_none_iff.2 (fields field spec (KeyMap.mem_entries_iff.1 mem))
    cases fine.symm.trans broken
  obtain ⟨⟨field, after⟩, mem, refused⟩ := List.exists_of_findSome?_eq_some others.2
  have declared := KeyMap.mem_entries_iff.1 mem
  dsimp only at refused
  split at refused
  · cases refused
  · rename_i new
    have lacked := KeyMap.contains_eq_false_iff.1 (Bool.eq_false_iff.2 new)
    unfold FieldSpec.additionRefused? at refused
    split at refused
    · rename_i h
      obtain ⟨required, forgotten⟩ := h
      cases refused
      cases between : middle.fields.get? field with
      | none =>
        obtain ⟨origin, promoted⟩ := second.added field after declared between required
        rw [promoted] at forgotten
        cases forgotten
      | some before =>
        obtain ⟨later, declared', evolves⟩ := second.fields field before between
        obtain rfl := Option.some.inj (declared.symm.trans declared')
        obtain ⟨origin, promoted⟩ :=
          first.added field before between lacked (evolves.required required)
        exact ⟨field, rfl, lacked, before, origin, after, between, promoted, declared, required,
          Option.isNone_iff_eq_none.1 forgotten⟩
    · cases refused

end Schema

namespace Registry

variable {registry withFirst withMiddle withLast : Registry} {schema first middle last : Schema}

/-- A registry takes a schema that may name a type and has no flaw, when its type has no other
schema, or an equal one, or one that it supersedes. -/
theorem exists_register_iff :
    (∃ result, registry.register schema = .ok result) ↔
      isTypeName schema.name = true ∧ schema.flaw? = none ∧
        ∀ current, registry.get? schema.name = some current →
          (current == schema) = true ∨ schema.Supersedes current := by
  constructor
  · rintro ⟨⟨outcome, next⟩, entered⟩
    obtain ⟨named, flawless, h⟩ := register_eq_ok entered
    refine ⟨named, flawless, fun current known => ?_⟩
    rcases h with ⟨-, -, same, found, equal⟩ | ⟨-, ⟨-, absent⟩ | ⟨earlier, found, compatible, -⟩⟩
    · obtain rfl := Option.some.inj (known.symm.trans found)
      exact .inl equal
    · rw [absent] at known
      cases known
    · obtain rfl := Option.some.inj (known.symm.trans found)
      exact .inr (Schema.incompatibility?_eq_none_iff.1 compatible)
  · rintro ⟨named, flawless, fits⟩
    have outcome : ∃ outcome, outcomeOf (registry.get? schema.name) schema = .ok outcome := by
      unfold outcomeOf
      cases known : registry.get? schema.name with
      | none => exact ⟨_, rfl⟩
      | some current =>
        rcases fits current known with equal | supersedes
        · simp only [equal, if_true]
          exact ⟨_, rfl⟩
        · dsimp only
          split
          · exact ⟨_, rfl⟩
          · rw [Schema.incompatibility?_eq_none_iff.2 supersedes]
            exact ⟨_, rfl⟩
    obtain ⟨outcome, decided⟩ := outcome
    unfold register
    simp only [named, flawless, decided]
    cases outcome <;> exact ⟨_, rfl⟩

theorem get?_of_inserted {outcome : Registration} (absent : registry.get? first.name = none)
    (entered : registry.register first = .ok (outcome, withFirst)) :
    withFirst.get? first.name = some first := by
  obtain ⟨-, -, ⟨-, -, same, found, -⟩ | ⟨rfl, -⟩⟩ := register_eq_ok entered
  · rw [absent] at found
    cases found
  · rw [get?_insert, if_pos rfl]

/-- When a registry takes three schemas of a new type in turn, it takes the third one also after the
first one, if only that one may fall back on `data`. -/
theorem exists_register_skipping_iff {outcome outcome' outcome'' : Registration}
    (named : middle.name = first.name) (named' : last.name = first.name)
    (absent : registry.get? first.name = none)
    (one : registry.register first = .ok (outcome, withFirst))
    (two : withFirst.register middle = .ok (outcome', withMiddle))
    (three : withMiddle.register last = .ok (outcome'', withLast)) :
    (∃ result, withFirst.register last = .ok result) ↔ last.FallsBack first := by
  have known : withFirst.get? last.name = some first := named' ▸ get?_of_inserted absent one
  obtain ⟨isName, flawless, fits⟩ := exists_register_iff.1 ⟨_, three⟩
  constructor
  · intro entered
    rcases (exists_register_iff.1 entered).2.2 first known with equal | supersedes
    · exact .of_beq equal
    · exact supersedes.added
  · intro fallsBack
    obtain ⟨-, -, ⟨-, rfl, -⟩ | ⟨rfl, change⟩⟩ := register_eq_ok two
    · exact ⟨_, three⟩
    · refine exists_register_iff.2 ⟨isName, flawless, fun current found => .inr ?_⟩
      obtain rfl := Option.some.inj (known.symm.trans found)
      have supersedes : middle.Supersedes first := by
        rw [named', ← named] at known
        rcases change with ⟨-, new⟩ | ⟨earlier, found, compatible, -⟩
        · rw [new] at known
          cases known
        · obtain rfl := Option.some.inj (known.symm.trans found)
          exact Schema.incompatibility?_eq_none_iff.1 compatible
      have current : Registry.get? ⟨withFirst.schemas.insert middle.name middle⟩ last.name =
          some middle := by
        rw [get?_insert, if_pos (named'.trans named.symm)]
      rcases fits middle current with equal | later
      · exact supersedes.of_beq equal
      · exact (supersedes.trans_iff later).2 fallsBack

/-- **When a version can be skipped.** Let a schema be compatible with a second one, and this one
with a third one. Then the first one is compatible with the third one exactly when the third one
still tells where `data` had the required fields that the first one lacks. So it is when no data key
was taken away, and the only reason against it is a required field whose data key was taken away. A
registry that takes the three schemas in turn takes the third one after the first one in the same
case. -/
theorem register_skipping (first middle last : Schema) :
    (first.incompatibility? middle = none → middle.incompatibility? last = none →
      (first.incompatibility? last = none ↔ last.FallsBack first) ∧
      (middle.KeepsDataKeys last → first.incompatibility? last = none) ∧
      ∀ reason, first.incompatibility? last = some reason →
        ∃ field, reason = .newFieldRequired field ∧ first.fields.get? field = none ∧
          middle.Forgets last field) ∧
    ∀ (registry withFirst withMiddle withLast : Registry)
        (outcome outcome' outcome'' : Registration),
      middle.name = first.name → last.name = first.name → registry.get? first.name = none →
      registry.register first = .ok (outcome, withFirst) →
      withFirst.register middle = .ok (outcome', withMiddle) →
      withMiddle.register last = .ok (outcome'', withLast) →
      ((∃ result, withFirst.register last = .ok result) ↔ last.FallsBack first) := by
  refine ⟨fun one two => ?_, fun registry withFirst withMiddle withLast _ _ _ named named' absent
    one two three => exists_register_skipping_iff named named' absent one two three⟩
  have supersedes := Schema.incompatibility?_eq_none_iff.1 one
  have later := Schema.incompatibility?_eq_none_iff.1 two
  have skips : first.incompatibility? last = none ↔ last.FallsBack first :=
    Schema.incompatibility?_eq_none_iff.trans (supersedes.trans_iff later)
  exact ⟨skips, fun keeps => skips.2 (.of_keepsDataKeys supersedes later keeps),
    fun _ refused => supersedes.eq_newFieldRequired later refused⟩

end Registry

/-! ## The sample -/

namespace Sample

/-- The registry of one type of figures. -/
def figuresOnly (schema : Schema) : Registry := ⟨KeyMap.empty.insert "Figure" schema⟩

theorem register_bareFigure :
    Registry.empty.register bareFigure = .ok (.inserted, figuresOnly bareFigure) := by rfl

theorem register_figure :
    (figuresOnly bareFigure).register figure = .ok (.upgraded 1 2, figuresOnly figure) := by rfl

theorem keepsDataKeys_captioned : figure.KeepsDataKeys captioned := by
  intro field spec next origin declared declared' _ promoted
  rw [get?_captioned] at declared'
  split at declared'
  · rename_i same
    subst same
    cases declared
  · obtain rfl := Option.some.inj (declared.symm.trans declared')
    exact ⟨origin, promoted, rfl⟩

end Sample

namespace Registry

/-- Figures with captions still tell where labels were, so that they can follow the first figures.
-/
theorem register_skipping_captioned :
    Sample.bareFigure.incompatibility? Sample.figure = none ∧
      Sample.figure.incompatibility? Sample.captioned = none ∧
      Sample.bareFigure.incompatibility? Sample.captioned = none ∧
      Registry.empty.register Sample.bareFigure =
        .ok (.inserted, Sample.figuresOnly Sample.bareFigure) ∧
      (Sample.figuresOnly Sample.bareFigure).register Sample.figure =
        .ok (.upgraded 1 2, Sample.figuresOnly Sample.figure) ∧
      (Sample.figuresOnly Sample.figure).register Sample.captioned =
        .ok (.upgraded 2 3, Sample.figuresOnly Sample.captioned) ∧
      ∃ result, (Sample.figuresOnly Sample.bareFigure).register Sample.captioned = .ok result := by
  have one : Sample.bareFigure.incompatibility? Sample.figure = none := by rfl
  have two : Sample.figure.incompatibility? Sample.captioned = none := by rfl
  have three : (Sample.figuresOnly Sample.figure).register Sample.captioned =
      .ok (.upgraded 2 3, Sample.figuresOnly Sample.captioned) := by rfl
  obtain ⟨compatible, entered⟩ := register_skipping Sample.bareFigure Sample.figure Sample.captioned
  obtain ⟨skips, kept, -⟩ := compatible one two
  have follows := kept Sample.keepsDataKeys_captioned
  exact ⟨one, two, follows, Sample.register_bareFigure, Sample.register_figure, three,
    (entered _ _ _ _ _ _ _ rfl rfl rfl Sample.register_bareFigure Sample.register_figure three).2
      (skips.1 follows)⟩

/-- Figures that forgot where labels were can follow figures with labels, which can follow the first
figures. But they cannot follow these at once. -/
theorem register_skipping_forgetful :
    Sample.bareFigure.flaw? = none ∧ Sample.figure.flaw? = none ∧ Sample.forgetful.flaw? = none ∧
      Sample.bareFigure.incompatibility? Sample.figure = none ∧
      Sample.figure.incompatibility? Sample.forgetful = none ∧
      Sample.bareFigure.incompatibility? Sample.forgetful = some (.newFieldRequired "label") ∧
      Registry.empty.register Sample.bareFigure =
        .ok (.inserted, Sample.figuresOnly Sample.bareFigure) ∧
      (Sample.figuresOnly Sample.bareFigure).register Sample.figure =
        .ok (.upgraded 1 2, Sample.figuresOnly Sample.figure) ∧
      (Sample.figuresOnly Sample.figure).register Sample.forgetful =
        .ok (.upgraded 2 3, Sample.figuresOnly Sample.forgetful) ∧
      (Sample.figuresOnly Sample.bareFigure).register Sample.forgetful =
        .error (.incompatible "Figure" (.newFieldRequired "label")) :=
  ⟨rfl, rfl, rfl, rfl, rfl, rfl, Sample.register_bareFigure, Sample.register_figure, rfl, rfl⟩

end Registry
end DocTree
