import DocTree.Schema.Check
import DocTree.Schema.Successor
import DocTree.Proofs.Foundations

/-!
# How schemas evolve

A schema gives way to a later one of its type only under conditions on all its parts. They hold
between any two schemas of a succession, not only between neighbours, once the version is allowed
to stay as it is.

## Main definitions

* `FieldSpec.EvolvesTo`, `Schema.EvolvesTo` — what a field and a schema may become.
* `Schema.Supersedes` — what a schema must fulfil to take the place of another.

## Main statements

* `Schema.incompatibility?_eq_none_iff` — a successor is accepted when it supersedes the schema.
* `Schema.EvolvesTo.trans` — evolution goes on over any number of steps.
* `Schema.Supersedes.evolvesTo` — a schema evolves to what supersedes it.
-/

namespace DocTree

/-! ## Fields -/

namespace FieldSpec

/-- The later declaration of a field keeps its kind, and requires it only if it was required. -/
structure EvolvesTo (earlier later : FieldSpec) : Prop where
  kind : later.kind = earlier.kind
  required : later.required = true → earlier.required = true

variable {spec middle later : FieldSpec}

theorem EvolvesTo.refl (spec : FieldSpec) : spec.EvolvesTo spec := ⟨rfl, id⟩

theorem EvolvesTo.trans (h : spec.EvolvesTo middle) (g : middle.EvolvesTo later) :
    spec.EvolvesTo later := ⟨g.kind.trans h.kind, h.required ∘ g.required⟩

theorem incompatibility?_eq_none_iff {next : Option FieldSpec} {field : String} :
    spec.incompatibility? next field = none ↔
      ∃ later, next = some later ∧ spec.EvolvesTo later := by
  cases next with
  | none => simp [incompatibility?]
  | some later =>
    have evolves : spec.EvolvesTo later ↔
        later.kind = spec.kind ∧ (later.required = true → spec.required = true) :=
      ⟨fun h => ⟨h.kind, h.required⟩, fun h => ⟨h.1, h.2⟩⟩
    by_cases kind : later.kind = spec.kind <;> cases spec.required <;>
      simp [incompatibility?, kind, evolves]

theorem additionRefused?_eq_none_iff {field : String} :
    spec.additionRefused? field = none ↔
      (spec.required = true → ∃ origin, spec.promotedFrom = some origin) := by
  unfold additionRefused?
  cases spec.promotedFrom <;> simp

end FieldSpec

namespace Schema

variable {schema middle next : Schema}

/-! ## Succession -/

/-- A later schema fulfils all that is asked of one that takes the place of the current one. -/
structure Supersedes (next current : Schema) : Prop where
  version : current.version < next.version
  category : next.category = current.category
  contentClass : next.contentClass = current.contentClass
  childClass : next.childClass = current.childClass
  kindOfValue : next.contentClass = .leaf → next.kindOfValue = current.kindOfValue
  fields : ∀ field spec, current.fields.get? field = some spec →
    ∃ later, next.fields.get? field = some later ∧ spec.EvolvesTo later
  added : ∀ field spec, next.fields.get? field = some spec → current.fields.get? field = none →
    spec.required = true → ∃ origin, spec.promotedFrom = some origin

/-- A successor is accepted when it supersedes the schema. -/
theorem incompatibility?_eq_none_iff :
    schema.incompatibility? next = none ↔ next.Supersedes schema := by
  simp only [incompatibility?, ite_some_eq_none_iff, Option.orElse_eq_orElse, Option.orElse_eq_or,
    Option.or_eq_none_iff, List.findSome?_eq_none_iff, Prod.forall, KeyMap.mem_entries_iff,
    FieldSpec.incompatibility?_eq_none_iff, ite_eq_left_iff, Bool.not_eq_true,
    KeyMap.contains_eq_false_iff, FieldSpec.additionRefused?_eq_none_iff, UInt32.not_le, ne_eq,
    Decidable.not_not, not_and]
  exact ⟨fun ⟨version, category, contentClass, childClass, kindOfValue, kept, new⟩ =>
    ⟨version, category, contentClass, childClass, kindOfValue, kept, new⟩, fun h =>
    ⟨h.version, h.category, h.contentClass, h.childClass, h.kindOfValue, h.fields, h.added⟩⟩

/-! ## Evolution -/

/-- The later schema is the earlier one, or one that has come after it: the type keeps its level,
its content and its fields, and no optional field has become required. -/
structure EvolvesTo (earlier later : Schema) : Prop where
  version : later = earlier ∨ earlier.version < later.version
  category : later.category = earlier.category
  contentClass : later.contentClass = earlier.contentClass
  childClass : later.childClass = earlier.childClass
  kindOfValue : later.kindOfValue = earlier.kindOfValue
  fields : ∀ field spec, earlier.fields.get? field = some spec →
    ∃ next, later.fields.get? field = some next ∧ spec.EvolvesTo next

theorem EvolvesTo.refl (schema : Schema) : schema.EvolvesTo schema :=
  ⟨.inl rfl, rfl, rfl, rfl, rfl, fun _ spec declared => ⟨spec, declared, .refl spec⟩⟩

/-- Evolution goes on over any number of steps. -/
theorem EvolvesTo.trans (h : schema.EvolvesTo middle) (g : middle.EvolvesTo next) :
    schema.EvolvesTo next where
  version := by
    rcases h.version with rfl | first
    · exact g.version
    · rcases g.version with rfl | second
      · exact .inr first
      · exact .inr (UInt32.lt_trans first second)
  category := g.category.trans h.category
  contentClass := g.contentClass.trans h.contentClass
  childClass := g.childClass.trans h.childClass
  kindOfValue := g.kindOfValue.trans h.kindOfValue
  fields := by
    intro field spec declared
    obtain ⟨between, declared, first⟩ := h.fields field spec declared
    obtain ⟨last, declared, second⟩ := g.fields field between declared
    exact ⟨last, declared, first.trans second⟩

/-- A type whose nodes carry no value has no kind of value. -/
theorem valueKind_eq_none (h : schema.flaw? = none) (other : schema.contentClass ≠ .leaf) :
    schema.valueKind = none := by
  simp only [flaw?, ite_some_eq_none_iff] at h
  have outsideLeaf := h.2.1
  simpa [other] using outsideLeaf

/-- A schema evolves to what supersedes it. The kind of `value` is compared for leaves alone, but
apart from them there is none. -/
theorem Supersedes.evolvesTo (h : next.Supersedes schema) (before : schema.flaw? = none)
    (after : next.flaw? = none) : schema.EvolvesTo next where
  version := .inr h.version
  category := h.category
  contentClass := h.contentClass
  childClass := h.childClass
  kindOfValue := by
    by_cases leaf : next.contentClass = .leaf
    · exact h.kindOfValue leaf
    · have other : schema.contentClass ≠ .leaf := h.contentClass ▸ leaf
      simp only [Schema.kindOfValue, valueKind_eq_none after leaf, valueKind_eq_none before other]
  fields := h.fields

end Schema
end DocTree
