import DocTree.Registry
import DocTree.Proofs.Foundations

/-!
# Registries that requests build

A registry is reached from the one without types by entering schemas one by one, a list at a time
or from a text. All that such a registry holds is sound: a schema stands under its own name, which
may name a type, and has no flaw.

## Main definitions

* `Registry.Reachable` — the registries that requests build.
* `Registry.Sound` — what holds of every schema in them.

## Main statements

* `Registry.register_eq_ok` — all that entering a schema can come to.
* `Registry.Reachable.sound` — reachable registries are sound.
-/

namespace DocTree

/-! ## Schemas without flaw -/

theorem FieldSpec.flaw?_eq_none_iff {spec : FieldSpec} {version : UInt32} {field : String} :
    spec.flaw? version field = none ↔
      isBaseKey field = false ∧
      (∀ value, spec.defaultValue = some value → spec.kind.fits value = true) ∧
      ∀ origin, spec.promotedFrom = some origin → origin.sinceVersion ≤ version := by
  unfold flaw?
  cases base : isBaseKey field <;> cases spec.defaultValue <;> cases spec.promotedFrom <;>
    simp [Option.or_eq_none_iff, UInt32.not_lt]

namespace Schema

theorem field_sound {schema : Schema} (h : schema.flaw? = none) {field : String}
    {spec : FieldSpec} (declared : schema.fields.get? field = some spec) :
    spec.flaw? schema.version field = none := by
  unfold flaw? at h
  repeat' split at h
  all_goals try cases h
  exact List.findSome?_eq_none_iff.1 h (field, spec) (KeyMap.mem_entries_iff.2 declared)

/-- A base key is never a declared field. -/
theorem declared_not_base {schema : Schema} (h : schema.flaw? = none) {field : String}
    {spec : FieldSpec} (declared : schema.fields.get? field = some spec) :
    isBaseKey field = false :=
  (FieldSpec.flaw?_eq_none_iff.1 (field_sound h declared)).1

/-- No field was promoted in a version that is still to come. -/
theorem promoted_by_now {schema : Schema} (h : schema.flaw? = none) {field : String}
    {spec : FieldSpec} (declared : schema.fields.get? field = some spec)
    {origin : PromotionOrigin} (promoted : spec.promotedFrom = some origin) :
    origin.sinceVersion ≤ schema.version :=
  (FieldSpec.flaw?_eq_none_iff.1 (field_sound h declared)).2.2 origin promoted

end Schema

namespace Registry

/-! ## Entering a schema -/

theorem get?_insert (registry : Registry) (schema : Schema) (name : String) :
    Registry.get? ⟨registry.schemas.insert schema.name schema⟩ name =
      if name = schema.name then some schema else registry.get? name :=
  KeyMap.get?_insert registry.schemas schema.name name schema

theorem outcomeOf_eq_ok {current : Option Schema} {schema : Schema} {outcome : Registration}
    (h : outcomeOf current schema = .ok outcome) :
    (current = none ∧ outcome = .inserted) ∨
    (∃ same, current = some same ∧ (same == schema) = true ∧ outcome = .unchanged) ∨
    ∃ earlier, current = some earlier ∧ earlier.incompatibility? schema = none ∧
      outcome = .upgraded earlier.version schema.version := by
  unfold outcomeOf at h
  split at h
  · cases h
    exact .inl ⟨rfl, rfl⟩
  · rename_i earlier
    split at h
    · cases h
      exact .inr (.inl ⟨earlier, rfl, ‹_›, rfl⟩)
    · split at h
      · cases h
      · cases h
        exact .inr (.inr ⟨earlier, rfl, ‹_›, rfl⟩)

/-- A schema that is entered is sound, and either the registry held it already or it now holds it,
as the first of its name or as a compatible successor. -/
theorem register_eq_ok {registry next : Registry} {schema : Schema} {outcome : Registration}
    (h : registry.register schema = .ok (outcome, next)) :
    isTypeName schema.name = true ∧ schema.flaw? = none ∧
      ((outcome = .unchanged ∧ next = registry ∧
          ∃ same, registry.get? schema.name = some same ∧ (same == schema) = true) ∨
        next = ⟨registry.schemas.insert schema.name schema⟩ ∧
          ((outcome = .inserted ∧ registry.get? schema.name = none) ∨
            ∃ earlier, registry.get? schema.name = some earlier ∧
              earlier.incompatibility? schema = none ∧
              outcome = .upgraded earlier.version schema.version)) := by
  unfold register at h
  split at h
  · cases h
  · rename_i named
    split at h
    · cases h
    · rename_i sound
      refine ⟨by simpa using named, sound, ?_⟩
      obtain ⟨result, step, h⟩ := Except.bind_eq_ok_iff.1 h
      rcases outcomeOf_eq_ok step with ⟨absent, rfl⟩ | ⟨same, found, equal, rfl⟩ |
        ⟨earlier, found, compatible, rfl⟩
      · cases h
        exact .inr ⟨rfl, .inl ⟨rfl, absent⟩⟩
      · cases h
        exact .inl ⟨rfl, rfl, same, found, equal⟩
      · cases h
        exact .inr ⟨rfl, .inr ⟨earlier, found, compatible, rfl⟩⟩

/-- A type whose schema changes is the one whose schema is entered, as a successor. -/
theorem changed_of_register {registry next : Registry} {schema before after : Schema}
    {outcome : Registration} {name : String}
    (entered : registry.register schema = .ok (outcome, next))
    (known : registry.get? name = some before) (found : next.get? name = some after)
    (changed : after ≠ before) :
    name = schema.name ∧ after = schema ∧ outcome = .upgraded before.version schema.version := by
  obtain ⟨-, -, ⟨-, rfl, -⟩ | ⟨rfl, change⟩⟩ := register_eq_ok entered
  · exact absurd (Option.some.inj (found.symm.trans known)) changed
  · rw [get?_insert] at found
    split at found
    · rename_i same
      subst same
      obtain ⟨-, absent⟩ | ⟨earlier, current, -, upgraded⟩ := change
      · rw [absent] at known
        cases known
      · obtain rfl := Option.some.inj (current.symm.trans known)
        exact ⟨rfl, (Option.some.inj found).symm, upgraded⟩
    · exact absurd (Option.some.inj (found.symm.trans known)) changed

/-- A registry in which a schema has taken the place of another holds all others as before. -/
theorem get?_eq_of_upgraded {registry next : Registry} {schema : Schema} {earlier later : UInt32}
    (entered : registry.register schema = .ok (.upgraded earlier later, next)) (name : String) :
    next.get? name = if name = schema.name then some schema else registry.get? name := by
  obtain ⟨-, -, ⟨unchanged, -⟩ | ⟨rfl, -⟩⟩ := register_eq_ok entered
  · cases unchanged
  · exact get?_insert registry schema name

theorem get?_of_upgraded {registry next : Registry} {schema : Schema} {earlier later : UInt32}
    (entered : registry.register schema = .ok (.upgraded earlier later, next)) :
    next.get? schema.name = some schema := by
  rw [get?_eq_of_upgraded entered, if_pos rfl]

/-! ## Reachable registries -/

/-- The registries that are reached from the one without types by entering schemas. -/
inductive Reachable : Registry → Prop
  | empty : Reachable empty
  | register {registry next : Registry} {schema : Schema} {outcome : Registration} :
      Reachable registry → registry.register schema = .ok (outcome, next) → Reachable next

theorem Reachable.registerAll {registry : Registry} (h : registry.Reachable)
    (schemas : List Schema) : (registry.registerAll schemas).2.Reachable := by
  induction schemas generalizing registry with
  | nil => exact h
  | cons schema schemas ih =>
    unfold Registry.registerAll
    split
    · exact h
    · rename_i outcome next entered
      exact ih (h.register entered)

theorem Reachable.load {registry : Registry} (h : registry.Reachable) (text : String) :
    (registry.load text).2.Reachable := by
  unfold Registry.load
  split
  · exact h
  · exact h.registerAll _

theorem reachable_reference : reference.Reachable := Reachable.empty.registerAll Schema.reference

/-! ## Soundness -/

/-- Each schema stands under its own name, which may name a type, and has no flaw. -/
def Sound (registry : Registry) : Prop :=
  ∀ name schema, registry.get? name = some schema →
    schema.name = name ∧ isTypeName schema.name = true ∧ schema.flaw? = none

theorem Sound.register {registry next : Registry} {schema : Schema} {outcome : Registration}
    (h : registry.Sound) (entered : registry.register schema = .ok (outcome, next)) :
    next.Sound := by
  obtain ⟨named, flawless, ⟨-, rfl, -⟩ | ⟨rfl, -⟩⟩ := register_eq_ok entered
  · exact h
  · intro name found hfound
    rw [get?_insert] at hfound
    split at hfound
    · rename_i same
      cases hfound
      exact ⟨same.symm, named, flawless⟩
    · exact h name found hfound

/-- All that a reachable registry holds is sound. -/
theorem Reachable.sound {registry : Registry} (h : registry.Reachable) : registry.Sound := by
  induction h with
  | empty => intro name schema found; cases found
  | register _ entered ih => exact ih.register entered

end Registry
end DocTree
