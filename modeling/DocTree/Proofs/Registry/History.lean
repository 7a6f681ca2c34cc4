import DocTree.Proofs.Registry.Reachable
import DocTree.Proofs.Schema.Evolution

/-!
# The history of a registry

A registry goes through a history of requests, some of which fail, and some of which enter several
schemas. No type ever leaves it, and the schema of a type only evolves.

## Main definitions

* `Registry.EvolvesTo` — all types are still there, with schemas that evolved from the earlier ones.
* `Request`, `Registry.perform` — what a registry is asked for, and what it is after that.
* `Registry.history` — all registries that a list of requests leads through.

## Main statements

* `Registry.Sound.evolvesTo` — to enter a schema lets a registry evolve.
* `Registry.history_monotone` — any two registries of a history are an earlier and a later one.
-/

namespace DocTree

/-- What a registry is asked for: to enter a schema, some schemas, or the schemas of a text. -/
inductive Request where
  | register (schema : Schema)
  | registerAll (schemas : List Schema)
  | load (text : String)

/-- The schemas that a request wants to enter; a malformed text has none. -/
def Request.schemas : Request → List Schema
  | .register schema => [schema]
  | .registerAll schemas => schemas
  | .load text =>
    match TextDecoder.run (TextDecoder.list Schema.decode) text with
    | .ok schemas => schemas
    | .error _ => []

namespace Registry

variable {registry middle later : Registry}

/-! ## Evolution -/

/-- Each type of the earlier registry is still there, and its schema has evolved. -/
def EvolvesTo (earlier later : Registry) : Prop :=
  ∀ name schema, earlier.get? name = some schema →
    ∃ next, later.get? name = some next ∧ schema.EvolvesTo next

theorem EvolvesTo.refl (registry : Registry) : registry.EvolvesTo registry :=
  fun _ schema known => ⟨schema, known, .refl schema⟩

theorem EvolvesTo.trans (h : registry.EvolvesTo middle) (g : middle.EvolvesTo later) :
    registry.EvolvesTo later := by
  intro name schema known
  obtain ⟨between, known, first⟩ := h name schema known
  obtain ⟨last, known, second⟩ := g name between known
  exact ⟨last, known, first.trans second⟩

/-- To enter a schema lets a registry evolve. -/
theorem Sound.evolvesTo {schema : Schema} {outcome : Registration} (h : registry.Sound)
    (entered : registry.register schema = .ok (outcome, later)) : registry.EvolvesTo later := by
  obtain ⟨-, flawless, ⟨-, rfl, -⟩ | ⟨rfl, change⟩⟩ := register_eq_ok entered
  · exact .refl _
  · intro name current known
    by_cases same : name = schema.name
    · subst same
      refine ⟨schema, by rw [get?_insert, if_pos rfl], ?_⟩
      rcases change with ⟨-, absent⟩ | ⟨earlier, found, compatible, -⟩
      · rw [absent] at known
        cases known
      · obtain rfl : earlier = current := Option.some.inj (found.symm.trans known)
        have supersedes := Schema.incompatibility?_eq_none_iff.1 compatible
        exact supersedes.evolvesTo (h _ _ known).2.2 flawless
    · exact ⟨current, by rw [get?_insert, if_neg same, known], .refl current⟩

/-! ## Requests -/

/-- The registry after a request. A request that fails keeps what was entered before. -/
def perform (registry : Registry) : Request → Registry
  | .register schema =>
    match registry.register schema with
    | .ok (_, next) => next
    | .error _ => registry
  | .registerAll schemas => (registry.registerAll schemas).2
  | .load text => (registry.load text).2

/-- The registries that a list of schemas leads through, up to the first schema that is refused. -/
def trail (registry : Registry) : List Schema → List Registry
  | [] => [registry]
  | schema :: schemas =>
    match registry.register schema with
    | .error _ => [registry]
    | .ok (_, next) => registry :: next.trail schemas

/-- The registries that a list of requests leads through. -/
def history (registry : Registry) : List Request → List Registry
  | [] => [registry]
  | request :: requests =>
    registry.trail request.schemas ++ (registry.perform request).history requests

theorem trail_of_refused {schema : Schema} {e : RegistryError}
    (refused : registry.register schema = .error e) (schemas : List Schema) :
    registry.trail (schema :: schemas) = [registry] := by
  rw [trail, refused]

theorem trail_of_entered {schema : Schema} {outcome : Registration}
    (entered : registry.register schema = .ok (outcome, later)) (schemas : List Schema) :
    registry.trail (schema :: schemas) = registry :: later.trail schemas := by
  rw [trail, entered]

theorem registerAll_of_refused {schema : Schema} {e : RegistryError}
    (refused : registry.register schema = .error e) (schemas : List Schema) :
    (registry.registerAll (schema :: schemas)).2 = registry := by
  rw [registerAll, refused]

theorem registerAll_of_entered {schema : Schema} {outcome : Registration}
    (entered : registry.register schema = .ok (outcome, later)) (schemas : List Schema) :
    (registry.registerAll (schema :: schemas)).2 = (later.registerAll schemas).2 := by
  rw [registerAll, entered]

/-- A request enters its schemas in turn. -/
theorem perform_eq (registry : Registry) (request : Request) :
    registry.perform request = (registry.registerAll request.schemas).2 := by
  cases request with
  | register schema =>
    cases entered : registry.register schema <;>
      simp [perform, Request.schemas, registerAll, entered]
  | registerAll schemas => rfl
  | load text =>
    cases read : TextDecoder.run (TextDecoder.list Schema.decode) text <;>
      simp [perform, Request.schemas, load, registerAll, read]

/-! ## Histories -/

/-- One registry comes before another in a history: both are sound, and the first one evolved to
the second one. -/
structure Precedes (earlier later : Registry) : Prop where
  before : earlier.Sound
  after : later.Sound
  evolves : earlier.EvolvesTo later

theorem Sound.precedes_self (h : registry.Sound) : registry.Precedes registry := ⟨h, h, .refl _⟩

theorem Precedes.trans (h : registry.Precedes middle) (g : middle.Precedes later) :
    registry.Precedes later := ⟨h.before, g.after, h.evolves.trans g.evolves⟩

theorem Sound.precedes_register {schema : Schema} {outcome : Registration} (h : registry.Sound)
    (entered : registry.register schema = .ok (outcome, later)) : registry.Precedes later :=
  ⟨h, h.register entered, h.evolvesTo entered⟩

theorem Sound.precedes_registerAll (h : registry.Sound) (schemas : List Schema) :
    registry.Precedes (registry.registerAll schemas).2 := by
  induction schemas generalizing registry with
  | nil => exact h.precedes_self
  | cons schema schemas ih =>
    cases entered : registry.register schema with
    | error e =>
      rw [registerAll_of_refused entered]
      exact h.precedes_self
    | ok result =>
      have step := h.precedes_register entered
      rw [registerAll_of_entered entered]
      exact step.trans (ih step.after)

theorem Sound.precedes_of_mem_trail (h : registry.Sound) {schemas : List Schema}
    {point : Registry} (mem : point ∈ registry.trail schemas) :
    registry.Precedes point ∧ point.Precedes (registry.registerAll schemas).2 := by
  induction schemas generalizing registry with
  | nil =>
    obtain rfl := List.mem_singleton.1 mem
    exact ⟨h.precedes_self, h.precedes_self⟩
  | cons schema schemas ih =>
    have here := h.precedes_registerAll (schema :: schemas)
    cases entered : registry.register schema with
    | error e =>
      rw [trail_of_refused entered] at mem
      obtain rfl := List.mem_singleton.1 mem
      exact ⟨h.precedes_self, here⟩
    | ok result =>
      have step := h.precedes_register entered
      rw [trail_of_entered entered] at mem
      rcases List.mem_cons.1 mem with rfl | mem
      · exact ⟨h.precedes_self, here⟩
      · obtain ⟨before, after⟩ := ih step.after mem
        rw [registerAll_of_entered entered]
        exact ⟨step.trans before, after⟩

/-- A list of schemas leads through registries in their order. -/
theorem Sound.trail_pairwise (h : registry.Sound) (schemas : List Schema) :
    (registry.trail schemas).Pairwise Precedes := by
  induction schemas generalizing registry with
  | nil => exact List.pairwise_singleton _ _
  | cons schema schemas ih =>
    cases entered : registry.register schema with
    | error e =>
      rw [trail_of_refused entered]
      exact List.pairwise_singleton _ _
    | ok result =>
      have step := h.precedes_register entered
      rw [trail_of_entered entered]
      refine List.pairwise_cons.2 ⟨fun point mem => ?_, ih step.after⟩
      exact step.trans (step.after.precedes_of_mem_trail mem).1

theorem Sound.precedes_perform (h : registry.Sound) (request : Request) :
    registry.Precedes (registry.perform request) := by
  rw [perform_eq]
  exact h.precedes_registerAll _

theorem Sound.precedes_of_mem_history (h : registry.Sound) {requests : List Request}
    {point : Registry} (mem : point ∈ registry.history requests) : registry.Precedes point := by
  induction requests generalizing registry with
  | nil =>
    obtain rfl := List.mem_singleton.1 mem
    exact h.precedes_self
  | cons request requests ih =>
    rcases List.mem_append.1 mem with now | later
    · exact (h.precedes_of_mem_trail now).1
    · have step := h.precedes_perform request
      exact step.trans (ih step.after later)

/-- A history goes through registries in their order. -/
theorem Sound.history_pairwise (h : registry.Sound) (requests : List Request) :
    (registry.history requests).Pairwise Precedes := by
  induction requests generalizing registry with
  | nil => exact List.pairwise_singleton _ _
  | cons request requests ih =>
    have step := h.precedes_perform request
    refine List.pairwise_append.2 ⟨h.trail_pairwise _, ih step.after, ?_⟩
    intro earlier now later mem
    have reached := (h.precedes_of_mem_trail now).2
    rw [← perform_eq] at reached
    exact reached.trans (step.after.precedes_of_mem_history mem)

theorem getLast?_history (registry : Registry) (requests : List Request) :
    (registry.history requests).getLast? = some (requests.foldl perform registry) := by
  induction requests generalizing registry with
  | nil => rfl
  | cons request requests ih => rw [history, List.getLast?_append, ih, Option.some_or]; rfl

/-- **Histories are monotone.** A history ends with the registry that its requests lead to. All
registries that it goes through are sound. Of any two of them, the later one has all types of the
earlier one, and each type has the same schema or one of a higher version, with the same category,
content and kinds of fields, where no optional field has become required. A single schema that is
refused leaves the registry as it was. -/
theorem history_monotone {start : Registry} (h : start = empty ∨ start = reference)
    (requests : List Request) :
    (start.history requests).getLast? = some (requests.foldl perform start) ∧
      (∀ point ∈ start.history requests, point.Sound) ∧
      (start.history requests).Pairwise EvolvesTo ∧
      ∀ point ∈ start.history requests, ∀ schema e, point.register schema = .error e →
        point.perform (.register schema) = point := by
  have sound : start.Sound := by
    rcases h with rfl | rfl
    · exact Reachable.empty.sound
    · exact reachable_reference.sound
  refine ⟨getLast?_history start requests, ?_, ?_, ?_⟩
  · exact fun point mem => (sound.precedes_of_mem_history mem).after
  · exact (sound.history_pairwise requests).imp Precedes.evolves
  · intro point _ schema e refused
    simp [perform, refused]

end Registry

/-! ## The sample -/

namespace Sample

/-- Figures as they were at first, without fields. -/
def bareFigure : Schema := .empty "Figure" .block

/-- Figures with a label, which came with the second version. -/
def labelledFigure : Schema :=
  { bareFigure with version := 2 }.withField "label" { kind := .string }

/-- Figures come in and are superseded. Then their first form is refused, and so is a text that
breaks off. -/
def requests : List Request :=
  [.register bareFigure, .registerAll [labelledFigure, bareFigure], .load "["]

end Sample

namespace Registry

/-- The sample ends with labelled figures, and their first form is refused there without a trace. -/
theorem history_monotone_figures :
    (Registry.empty.history Sample.requests).Pairwise EvolvesTo ∧
      (Sample.requests.foldl perform empty).get? "Figure" = some Sample.labelledFigure ∧
      ∃ e, (Sample.requests.foldl perform empty).register Sample.bareFigure = .error e ∧
        (Sample.requests.foldl perform empty).perform (.register Sample.bareFigure) =
          Sample.requests.foldl perform empty := by
  obtain ⟨last, -, ordered, unchanged⟩ := history_monotone (.inl rfl) Sample.requests
  have refused : ∃ e, (Sample.requests.foldl perform empty).register Sample.bareFigure =
      .error e := ⟨_, rfl⟩
  obtain ⟨e, refused⟩ := refused
  exact ⟨ordered, rfl, e, refused, unchanged _ (List.mem_of_getLast? last) _ _ refused⟩

end Registry
end DocTree
