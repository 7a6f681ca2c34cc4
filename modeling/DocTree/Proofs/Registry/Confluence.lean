import DocTree.Proofs.Registry.Loading
import DocTree.Proofs.Registry.Skipping

/-!
# The order of registrations

The same schemas may be entered in several orders. Some orders fail, since a schema only takes the
place of one of an earlier version. All orders in which none of the schemas is refused lead to the
same registry, where each name has the schema of the highest version that was there or came in.

## Main definitions

* `Registry.Offers` — the schemas of a name that a registry has or a list brings.
* `Registry.Latest` — a schema of the highest version among them.

## Main statements

* `Registry.get?_of_register` — what is entered is found, in an equal form.
* `Registry.Sound.latest` — what a list leads to that is entered as a whole.
* `Registry.registerAll_confluent` — the order of the list does not matter.
-/

namespace DocTree

/-! ## Equal schemas -/

instance : ReflBEq FieldSpec := ⟨fun {spec} => by
  change (spec.kind == spec.kind && (spec.required == spec.required &&
    (spec.defaultValue == spec.defaultValue && spec.promotedFrom == spec.promotedFrom))) = true
  simp⟩

instance : ReflBEq Schema := ⟨fun {schema} => by
  change (schema.name == schema.name && (schema.version == schema.version &&
    (schema.category == schema.category && (schema.contentClass == schema.contentClass &&
    (schema.fields == schema.fields && (schema.childContentClass == schema.childContentClass &&
    schema.valueKind == schema.valueKind)))))) = true
  simp⟩

namespace Registry

variable {registry later left right : Registry} {schemas first second : List Schema} {name : String}

/-! ## Offers -/

/-- A schema of the name that the registry has, or that the list brings. -/
def Offers (registry : Registry) (schemas : List Schema) (name : String) (schema : Schema) : Prop :=
  registry.get? name = some schema ∨ schema ∈ schemas ∧ schema.name = name

/-- A schema that is offered under the name, where all others are of an earlier version or equal. -/
structure Latest (registry : Registry) (schemas : List Schema) (name : String) (schema : Schema) :
    Prop where
  offered : registry.Offers schemas name schema
  latest : ∀ other, registry.Offers schemas name other →
    other.version < schema.version ∨ (schema == other) = true

/-- Each name has the latest of the schemas that are offered under it, and nothing if there are
none. -/
structure HasLatest (later registry : Registry) (schemas : List Schema) : Prop where
  found : ∀ name schema, registry.Offers schemas name schema → ∃ held, later.get? name = some held
  latest : ∀ name held, later.get? name = some held → registry.Latest schemas name held

theorem Offers.perm {schema : Schema} (order : first.Perm second)
    (h : registry.Offers first name schema) : registry.Offers second name schema :=
  h.imp_right fun ⟨mem, named⟩ => ⟨order.mem_iff.1 mem, named⟩

theorem HasLatest.perm (order : first.Perm second) (h : later.HasLatest registry first) :
    later.HasLatest registry second where
  found name schema offered := h.found name schema (offered.perm order.symm)
  latest name held known :=
    { offered := (h.latest name held known).offered.perm order
      latest := fun other offered => (h.latest name held known).latest other
        (offered.perm order.symm) }

/-! ## Entering schemas -/

/-- What is entered is found, in an equal form if it was there before. -/
theorem get?_of_register {schema : Schema} {outcome : Registration}
    (entered : registry.register schema = .ok (outcome, later)) :
    ∃ held, later.get? schema.name = some held ∧ (held == schema) = true := by
  obtain ⟨-, -, ⟨-, rfl, same, found, equal⟩ | ⟨rfl, -⟩⟩ := register_eq_ok entered
  · exact ⟨same, found, equal⟩
  · exact ⟨schema, by rw [get?_insert, if_pos rfl], BEq.rfl⟩

/-- A list that is entered as a whole begins with a schema that is entered. -/
theorem registerAll_cons_eq_ok {schema : Schema} {count : Nat}
    (entered : registry.registerAll (schema :: schemas) = (.ok count, later)) :
    ∃ outcome next rest, registry.register schema = .ok (outcome, next) ∧
      next.registerAll schemas = (.ok rest, later) := by
  cases step : registry.register schema with
  | error e =>
    rw [registerAll, step] at entered
    cases entered
  | ok result =>
    obtain ⟨outcome, next⟩ := result
    rw [registerAll_cons step] at entered
    obtain ⟨counted, rfl⟩ := Prod.mk.inj entered
    cases rest : (next.registerAll schemas).1 with
    | error e =>
      rw [rest] at counted
      cases counted
    | ok count => exact ⟨outcome, next, count, rfl, Prod.ext rest rfl⟩

/-- What a name had before a list was entered gives way to a later version only. -/
theorem Sound.superseded (h : registry.Sound) {result : Except RegistryError Nat}
    (entered : registry.registerAll schemas = (result, later)) {schema : Schema}
    (known : registry.get? name = some schema) :
    ∃ held, later.get? name = some held ∧ (schema.version < held.version ∨ held = schema) := by
  have evolves := (h.precedes_registerAll schemas).evolves
  rw [entered] at evolves
  obtain ⟨held, found, evolved⟩ := evolves name schema known
  exact ⟨held, found, evolved.version.symm⟩

/-- A schema of a list that is entered as a whole gives way to a later version only. -/
theorem Sound.superseded_of_mem (h : registry.Sound) {count : Nat}
    (entered : registry.registerAll schemas = (.ok count, later)) {schema : Schema}
    (mem : schema ∈ schemas) :
    ∃ held, later.get? schema.name = some held ∧
      (schema.version < held.version ∨ (held == schema) = true) := by
  induction schemas generalizing registry count with
  | nil => cases mem
  | cons first schemas ih =>
    obtain ⟨outcome, next, _, step, rest⟩ := registerAll_cons_eq_ok entered
    have sound := h.register step
    rcases List.mem_cons.1 mem with rfl | mem
    · obtain ⟨same, here, equal⟩ := get?_of_register step
      obtain ⟨held, found, newer⟩ := sound.superseded rest here
      have version : same.version = schema.version := (Schema.parts_of_beq equal).1
      rcases newer with newer | rfl
      · exact ⟨held, found, .inl (version ▸ newer)⟩
      · exact ⟨held, found, .inr equal⟩
    · exact ih sound rest mem

/-- What a list leads to that is entered as a whole: under each name the latest schema. -/
theorem Sound.hasLatest (h : registry.Sound) {count : Nat}
    (entered : registry.registerAll schemas = (.ok count, later)) :
    later.HasLatest registry schemas := by
  have held : ∀ name schema, registry.Offers schemas name schema →
      ∃ held, later.get? name = some held ∧
        (schema.version < held.version ∨ (held == schema) = true) := by
    rintro name schema (known | ⟨mem, rfl⟩)
    · obtain ⟨held, found, newer | rfl⟩ := h.superseded entered known
      · exact ⟨held, found, .inl newer⟩
      · exact ⟨held, found, .inr BEq.rfl⟩
    · exact h.superseded_of_mem entered mem
  refine ⟨fun name schema offered => ?_, fun name last found => ⟨?_, fun other offered => ?_⟩⟩
  · obtain ⟨last, found, -⟩ := held name schema offered
    exact ⟨last, found⟩
  · rcases get?_registerAll registry schemas name with same | ⟨schema, mem, named, resolves⟩
    · exact .inl (by rw [← same, entered, found])
    · rw [entered, found] at resolves
      obtain rfl := Option.some.inj resolves
      exact .inr ⟨mem, named⟩
  · obtain ⟨last', found', newest⟩ := held name other offered
    obtain rfl := Option.some.inj (found.symm.trans found')
    exact newest

/-! ## Confluence -/

/-- Of two schemas that are both the latest, neither is later than the other one. -/
theorem Latest.beq {schema other : Schema} (h : registry.Latest schemas name schema)
    (g : registry.Latest schemas name other) : (schema == other) = true := by
  rcases h.latest other g.offered with earlier | equal
  · rcases g.latest schema h.offered with later | equal
    · exact absurd later (UInt32.lt_asymm earlier)
    · exact absurd (Schema.parts_of_beq equal).1 (UInt32.ne_of_lt earlier)
  · exact equal

theorem HasLatest.beq (h : left.HasLatest registry schemas) (g : right.HasLatest registry schemas) :
    (left.schemas == right.schemas) = true := by
  refine KeyMap.beq_of_beq_get? fun name => ?_
  change (left.get? name == right.get? name) = true
  cases known : left.get? name with
  | some held =>
    have latest := h.latest name held known
    obtain ⟨other, found⟩ := g.found name held latest.offered
    rw [found]
    exact latest.beq (g.latest name other found)
  | none =>
    cases known' : right.get? name with
    | none => rfl
    | some other =>
      obtain ⟨held, found⟩ := h.found name other (g.latest name other known').offered
      cases known.symm.trans found

/-- **The order of registrations does not matter.** When all schemas of a list are entered, in two
orders, and none of them is refused, the two registries are equal. In both of them each name has the
latest of the schemas that it had before and that the list brings: all others are of an earlier
version, or equal to it. -/
theorem registerAll_confluent (reachable : registry.Reachable) (order : first.Perm schemas)
    (order' : second.Perm schemas) {count count' : Nat}
    (one : registry.registerAll first = (.ok count, left))
    (other : registry.registerAll second = (.ok count', right)) :
    (left.schemas == right.schemas) = true ∧ left.HasLatest registry schemas ∧
      right.HasLatest registry schemas := by
  have latest := (reachable.sound.hasLatest one).perm order
  have latest' := (reachable.sound.hasLatest other).perm order'
  exact ⟨latest.beq latest', latest, latest'⟩

end Registry

/-! ## The sample -/

namespace Sample

/-- Boxes come in after figures, which have come in twice and have been superseded. -/
def boxesLast : List Schema := [bareFigure, bareFigure, labelledFigure, box]

/-- Boxes come in first. -/
def boxesFirst : List Schema := [box, bareFigure, bareFigure, labelledFigure]

/-- Figures with labels, and boxes. -/
def figuresAndBoxes : Registry :=
  ⟨(KeyMap.empty.insert "Figure" labelledFigure).insert "Box" box⟩

theorem registerAll_boxesLast :
    Registry.empty.registerAll boxesLast = (.ok 3, figuresAndBoxes) := by rfl

theorem registerAll_boxesFirst :
    Registry.empty.registerAll boxesFirst = (.ok 3, figuresAndBoxes) := by rfl

end Sample

namespace Registry

/-- Boxes may come in before or after figures. -/
theorem registerAll_confluent_boxes :
    empty.Reachable ∧ Sample.boxesFirst.Perm Sample.boxesLast ∧
      empty.registerAll Sample.boxesLast = (.ok 3, Sample.figuresAndBoxes) ∧
      empty.registerAll Sample.boxesFirst = (.ok 3, Sample.figuresAndBoxes) ∧
      Sample.figuresAndBoxes.HasLatest empty Sample.boxesLast := by
  have order : Sample.boxesFirst.Perm Sample.boxesLast :=
    (List.perm_append_singleton Sample.box
      [Sample.bareFigure, Sample.bareFigure, Sample.labelledFigure]).symm
  have confluent := registerAll_confluent .empty (.refl _) order Sample.registerAll_boxesLast
    Sample.registerAll_boxesFirst
  exact ⟨.empty, order, Sample.registerAll_boxesLast, Sample.registerAll_boxesFirst, confluent.2.1⟩

end Registry
end DocTree
