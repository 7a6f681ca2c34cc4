import DocTree.Proofs.Decode.Records
import DocTree.Proofs.Registry.Reachable

/-!
# Schemas and their JSON form

A schema is written with its category and without the parts that it does not have, and it is read
with any of these left out. A default of null would be read as no default, but no kind of field fits
null, so a schema without flaw has none. Schemas without flaw are read back from their form, whether
its members stand as they were written or were collected into maps. The form is a JSON value; how
values are written as texts and read from them is not part of it.

## Main statements

* `FieldSpec.decode_toJson` — a field without a default of null is read back.
* `DescribedSchema.decode_members` — a schema is read back when its fields are.
* `Schema.roundTrip_of_flawless` — a schema without flaw is read back.
-/

namespace DocTree

open Format

/-! ## Words and names -/

theorem Decoder.word_versionJson (version : UInt32) :
    (word : Decoder UInt32) (versionJson version) = .ok version :=
  map_eq_ok_iff.2 ⟨version.toNat, naturalOf_nat version.toNat_lt, UInt32.ofNat_toNat⟩

theorem FieldKind.decode_name (kind : FieldKind) :
    (FieldKind.decode : Decoder FieldKind) (.string kind.name) = .ok kind :=
  Decoder.choice_name (by decide) (by cases kind <;> decide)

theorem Category.decode_name (category : Category) :
    (Category.decode : Decoder Category) (.string category.name) = .ok category :=
  Decoder.choice_name (by decide) (by cases category <;> decide)

theorem ContentClass.decode_name (contentClass : ContentClass) :
    (ContentClass.decode : Decoder ContentClass) (.string contentClass.name) = .ok contentClass :=
  Decoder.choice_name (by decide) (by cases contentClass <;> decide)

theorem ChildClass.decode_name (childClass : ChildClass) :
    (ChildClass.decode : Decoder ChildClass) (.string childClass.name) = .ok childClass :=
  Decoder.choice_name (by decide) (by cases childClass <;> decide)

/-! ## Fields -/

theorem PromotionOrigin.decode_toJson (origin : PromotionOrigin) :
    (PromotionOrigin.decode : Decoder PromotionOrigin) origin.toJson = .ok origin :=
  have since := Decoder.word_versionJson origin.sinceVersion
  Decoder.Sets.record_eq_ok (.cons rfl rfl (.cons rfl since .nil)) rfl rfl

theorem PromotionOrigin.canonical_toJson (origin : PromotionOrigin) : origin.toJson.Canonical := by
  have order : "dataKey" < "sinceVersion" := by decide
  exact ⟨KeyMap.inOrder_of_ordered (List.pairwise_pair.2 order), trivial, trivial, trivial⟩

/-- A field without a default of null is read back from its form. -/
theorem FieldSpec.decode_toJson {spec : FieldSpec} (noNull : spec.defaultValue ≠ some .null) :
    (FieldSpec.decode : Decoder FieldSpec) spec.toJson = .ok spec := by
  have kind := FieldKind.decode_name spec.kind
  have default : ∀ value, spec.defaultValue = some value →
      (Format.optional json : Decoder (Option Json)) (id value) = .ok (some value) :=
    fun value there => Decoder.optional_eq_ok (fun null => noNull (null ▸ there)) rfl
  have origin : ∀ origin, spec.promotedFrom = some origin →
      (Format.optional PromotionOrigin.decode : Decoder (Option PromotionOrigin)) origin.toJson =
        .ok (some origin) :=
    fun origin _ => Decoder.optional_eq_ok (by simp [PromotionOrigin.toJson]) origin.decode_toJson
  refine Decoder.Sets.record_eq_ok (.append
    (.append (.cons rfl kind (.cons rfl rfl .nil)) (.optionalMember rfl default))
    (.optionalMember rfl origin)) ?whole ?comes
  all_goals
    obtain ⟨_, _, _ | _, _ | _⟩ := spec <;> rfl

/-- A default of null is read as none. -/
example : (FieldSpec.decode : Decoder FieldSpec)
    (FieldSpec.toJson { kind := .scalar, defaultValue := some .null }) =
      .ok { kind := .scalar } := by
  rfl

/-- A field is read back from its form with the members collected into maps. -/
theorem FieldSpec.decode_collected {spec : FieldSpec} (noNull : spec.defaultValue ≠ some .null)
    (canonical : ∀ value, spec.defaultValue = some value → value.Canonical) :
    (FieldSpec.decode : Decoder FieldSpec) spec.toJson.collected = .ok spec := by
  have origins := PromotionOrigin.canonical_toJson
  obtain ⟨members, form, once, values⟩ : ∃ members, spec.toJson = .object members ∧
      (members.map (·.1)).Nodup ∧ ∀ member ∈ members, member.2.Canonical := by
    refine ⟨_, rfl, ?_, ?_⟩
    · obtain ⟨_, _, _ | _, _ | _⟩ := spec <;> simp [optionalMember]
    · obtain ⟨_, _, _ | _, _ | _⟩ := spec <;> simp_all [optionalMember, Json.Canonical]
  rw [form, Json.collected, Json.collectedMembers_of_canonical (Json.canonicalMembers_iff.2 values)]
  refine Decoder.record_collected ?apart once (form ▸ decode_toJson noNull)
  simp only [List.pairwise_cons, List.forall_mem_cons, List.not_mem_nil, false_imp_iff,
    implies_true, List.Pairwise.nil, and_true]
  and_intros
  all_goals exact Slot.apart_slot fun _ _ _ => rfl

/-! ## Schemas -/

/-- The form of the fields of a schema. -/
def Schema.fieldsJson (schema : Schema) : Json :=
  .object (schema.fields.entries.map fun entry => (entry.1, entry.2.toJson))

/-- The members of the form of a schema, with the form of its fields given. -/
def Schema.membersWith (schema : Schema) (fields : Json) : List (String × Json) :=
  [ ("name", .string schema.name),
    ("version", versionJson schema.version),
    ("category", .string schema.category.name),
    ("contentClass", .string schema.contentClass.name),
    ("fields", fields) ] ++
  optionalMember "childContentClass" (fun c => .string c.name) schema.childContentClass ++
  optionalMember "valueKind" (fun kind => .string kind.name) schema.valueKind

/-- The description of a schema is read from its form when the fields are. The category is told
apart from the schema that is described. -/
theorem DescribedSchema.decode_members {schema : Schema} {fields : Json}
    (read : (table FieldSpec.decode : Decoder (KeyMap FieldSpec)) fields = .ok schema.fields) :
    (DescribedSchema.decode : Decoder DescribedSchema) (.object (schema.membersWith fields)) =
      .ok ⟨some schema.category, { schema with category := .block }⟩ := by
  have version := Decoder.word_versionJson schema.version
  have category := Decoder.optional_eq_ok (by simp) (Category.decode_name schema.category)
  have content := ContentClass.decode_name schema.contentClass
  have childClass : ∀ childClass, schema.childContentClass = some childClass →
      (Format.optional ChildClass.decode : Decoder (Option ChildClass)) (.string childClass.name) =
        .ok (some childClass) :=
    fun childClass _ => Decoder.optional_eq_ok (by simp) childClass.decode_name
  have valueKind : ∀ kind, schema.valueKind = some kind →
      (Format.optional FieldKind.decode : Decoder (Option FieldKind)) (.string kind.name) =
        .ok (some kind) :=
    fun kind _ => Decoder.optional_eq_ok (by simp) kind.decode_name
  refine Decoder.Sets.record_eq_ok (.append
    (.append (.cons rfl rfl (.cons rfl version (.cons rfl category (.cons rfl content
      (.cons rfl read .nil))))) (.optionalMember rfl childClass))
    (.optionalMember rfl valueKind)) ?whole ?comes
  all_goals
    obtain ⟨_, _, _, _, _, _ | _, _ | _⟩ := schema <;> rfl

/-- The description of a schema is read from its form with the members collected into a map. -/
theorem DescribedSchema.decode_collected {schema : Schema} {fields : Json}
    (read : (table FieldSpec.decode : Decoder (KeyMap FieldSpec)) fields = .ok schema.fields) :
    (DescribedSchema.decode : Decoder DescribedSchema)
      (.ofMap (.ofList (schema.membersWith fields))) =
        .ok ⟨some schema.category, { schema with category := .block }⟩ := by
  refine Decoder.record_collected ?apart ?once (decode_members read)
  case apart =>
    simp only [List.pairwise_cons, List.forall_mem_cons, List.not_mem_nil, false_imp_iff,
      implies_true, List.Pairwise.nil, and_true]
    and_intros
    all_goals exact Slot.apart_slot fun _ _ _ => rfl
  case once =>
    obtain ⟨_, _, _, _, _, _ | _, _ | _⟩ := schema <;> simp [Schema.membersWith, optionalMember]

namespace Schema

theorem decode_of_described {schema : Schema} {value : Json}
    (read : (DescribedSchema.decode : Decoder DescribedSchema) value =
      .ok ⟨some schema.category, { schema with category := .block }⟩) :
    (Schema.decode : Decoder Schema) value = .ok schema :=
  Decoder.map_eq_ok_iff.2 ⟨_, read, rfl⟩

theorem default_ne_null {schema : Schema} (flawless : schema.flaw? = none) {field : String}
    {spec : FieldSpec} (declared : schema.fields.get? field = some spec) :
    spec.defaultValue ≠ some .null := by
  intro null
  have fits := (FieldSpec.flaw?_eq_none_iff.1 (field_sound flawless declared)).2.1 .null null
  cases kind : spec.kind <;> simp [kind, FieldKind.fits] at fits

theorem toJson_eq (schema : Schema) :
    schema.toJson = .object (schema.membersWith schema.fieldsJson) := rfl

theorem collected_toJson (schema : Schema) :
    schema.toJson.collected =
      .ofMap (.ofList (schema.membersWith schema.fieldsJson.collected)) := by
  have members : Json.collectedMembers (schema.membersWith schema.fieldsJson) =
      schema.membersWith schema.fieldsJson.collected := by
    obtain ⟨_, _, _, _, _, _ | _, _ | _⟩ := schema <;> rfl
  rw [toJson_eq, Json.collected, members]

/-- **A schema without flaw is read back from its JSON form**, with its members in the order in
which they are written, and with those of every object collected into a map. The form is a value and
not its text: a reader of texts refuses a default that is nested too deep, and may round a decimal
to a neighbour of the number that was written. -/
theorem roundTrip_of_flawless {schema : Schema} (flawless : schema.flaw? = none) :
    (Schema.decode : Decoder Schema) schema.toJson = .ok schema ∧
    ((∀ field spec value, schema.fields.get? field = some spec →
        spec.defaultValue = some value → value.Canonical) →
      (Schema.decode : Decoder Schema) schema.toJson.collected = .ok schema) := by
  have declared : ∀ entry ∈ schema.fields.entries, schema.fields.get? entry.1 = some entry.2 :=
    fun entry mem => KeyMap.mem_entries_iff.1 mem
  have noNull : ∀ entry ∈ schema.fields.entries, entry.2.defaultValue ≠ some .null :=
    fun entry mem => default_ne_null flawless (declared entry mem)
  constructor
  · have fields := Decoder.table_eq_ok FieldSpec.toJson fun entry mem =>
      FieldSpec.decode_toJson (noNull entry mem)
    exact decode_of_described (DescribedSchema.decode_members fields)
  · intro canonical
    have fields := Decoder.table_eq_ok (fun spec => spec.toJson.collected) fun entry mem =>
      FieldSpec.decode_collected (noNull entry mem) fun value =>
        canonical _ _ _ (declared entry mem)
    rw [← Json.collected_object_entries] at fields
    rw [collected_toJson]
    exact decode_of_described (DescribedSchema.decode_collected fields)

end Schema

/-- A container with a field that was promoted, and one with a default. -/
def Sample.card : Schema :=
  { Schema.container "Card" .block .inline with version := 3 }
    |>.withField "title" { kind := .string, required := true, promotedFrom := some ⟨"heading", 2⟩ }
    |>.withField "margin" { kind := .scalar, defaultValue := some (.number (.int 1)) }

namespace Schema

/-- The sample is read back from both of its forms. -/
theorem roundTrip_of_flawless_card :
    Sample.card.flaw? = none ∧
      (Schema.decode : Decoder Schema) Sample.card.toJson = .ok Sample.card ∧
      (Schema.decode : Decoder Schema) Sample.card.toJson.collected = .ok Sample.card := by
  have flawless : Sample.card.flaw? = none := by rfl
  obtain ⟨written, collected⟩ := roundTrip_of_flawless flawless
  refine ⟨flawless, written, collected fun field spec value declared default => ?_⟩
  have mem : (field, spec) ∈ Sample.card.fields.entries := KeyMap.mem_entries_iff.2 declared
  have entries : Sample.card.fields.entries =
      [("margin", { kind := .scalar, defaultValue := some (.number (.int 1)) }),
        ("title",
          { kind := .string, required := true, promotedFrom := some ⟨"heading", 2⟩ })] := rfl
  simp only [entries, List.mem_cons, Prod.mk.injEq, List.not_mem_nil, or_false] at mem
  obtain ⟨-, rfl⟩ | ⟨-, rfl⟩ := mem
  · cases default
    trivial
  · cases default

end Schema
end DocTree
