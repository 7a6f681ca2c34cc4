import DocTree.Proofs.Registry.History

/-!
# Loads that fail

A load of schemas that fails is not undone. A malformed text enters nothing. Otherwise the schemas
before the one that is refused stay, as if they alone had been entered, and neither that schema nor
those after it have an effect.

## Main statements

* `Registry.registerAll_eq_error` — a list is entered up to the schema that is refused.
* `Registry.get?_registerAll` — a name that resolves otherwise resolves to a schema of the list.
* `Registry.Sound.count_eq_zero_iff` — what is counted when a list changes nothing.
* `Registry.load_keeps_before` — what a failed load leaves.
-/

namespace DocTree
namespace Registry

variable {registry later : Registry} {schemas : List Schema}

/-! ## Lists of schemas -/

theorem registerAll_cons {schema : Schema} {outcome : Registration}
    (entered : registry.register schema = .ok (outcome, later)) (schemas : List Schema) :
    registry.registerAll (schema :: schemas) =
      ((later.registerAll schemas).1.map (· + if outcome = .unchanged then 0 else 1),
        (later.registerAll schemas).2) := by
  rw [registerAll, entered]

/-- A list that fails is entered up to the schema that is refused. -/
theorem registerAll_eq_error {e : RegistryError}
    (failed : (registry.registerAll schemas).1 = .error e) :
    ∃ before refused after count, schemas = before ++ refused :: after ∧
      registry.registerAll before = (.ok count, (registry.registerAll schemas).2) ∧
      (registry.registerAll schemas).2.register refused = .error e := by
  induction schemas generalizing registry with
  | nil => cases failed
  | cons schema schemas ih =>
    cases entered : registry.register schema with
    | error found =>
      have same : registry.registerAll (schema :: schemas) = (.error found, registry) := by
        rw [registerAll, entered]
      rw [same] at failed ⊢
      cases failed
      exact ⟨[], schema, schemas, 0, rfl, rfl, entered⟩
    | ok result =>
      obtain ⟨outcome, next⟩ := result
      rw [registerAll_cons entered] at failed ⊢
      cases rest : (next.registerAll schemas).1 with
      | ok count =>
        rw [rest] at failed
        cases failed
      | error found =>
        rw [rest] at failed
        cases failed
        obtain ⟨before, refused, after, count, split, kept, fails⟩ := ih rest
        refine ⟨schema :: before, refused, after, count + if outcome = .unchanged then 0 else 1,
          congrArg (schema :: ·) split, ?_, fails⟩
        rw [registerAll_cons entered, kept]
        rfl

/-- A name that resolves otherwise after a list has been entered resolves to a schema of that
list. -/
theorem get?_registerAll (registry : Registry) (schemas : List Schema) (name : String) :
    (registry.registerAll schemas).2.get? name = registry.get? name ∨
      ∃ schema ∈ schemas, schema.name = name ∧
        (registry.registerAll schemas).2.get? name = some schema := by
  induction schemas generalizing registry with
  | nil => exact .inl rfl
  | cons schema schemas ih =>
    cases entered : registry.register schema with
    | error e =>
      rw [registerAll_of_refused entered]
      exact .inl rfl
    | ok result =>
      obtain ⟨outcome, next⟩ := result
      rw [registerAll_of_entered entered]
      rcases ih next with same | ⟨found, mem, named, resolves⟩
      · obtain ⟨-, -, ⟨-, rfl, -⟩ | ⟨rfl, -⟩⟩ := register_eq_ok entered
        · exact .inl same
        · rw [get?_insert] at same
          split at same
          · rename_i here
            exact .inr ⟨schema, List.mem_cons_self, here.symm, same⟩
          · exact .inl same
      · exact .inr ⟨found, List.mem_cons_of_mem _ mem, named, resolves⟩

/-- A schema that is entered as new, or in the place of another one, changes what its name resolves
to for good. -/
theorem get?_ne_of_changed {schema : Schema} {outcome : Registration}
    (entered : registry.register schema = .ok (outcome, later)) (changed : outcome ≠ .unchanged)
    {last : Registry} (evolves : later.EvolvesTo last) :
    last.get? schema.name ≠ registry.get? schema.name := by
  obtain ⟨-, -, ⟨unchanged, -⟩ | ⟨rfl, change⟩⟩ := register_eq_ok entered
  · exact absurd unchanged changed
  have here : Registry.get? ⟨registry.schemas.insert schema.name schema⟩ schema.name =
      some schema := by
    rw [get?_insert, if_pos rfl]
  obtain ⟨next, found, evolved⟩ := evolves _ _ here
  rw [found]
  rcases change with ⟨-, absent⟩ | ⟨earlier, known, compatible, -⟩
  · rw [absent]
    exact Option.some_ne_none next
  · rw [known]
    intro same
    obtain rfl := Option.some.inj same
    have newer := (Schema.incompatibility?_eq_none_iff.1 compatible).version
    rcases evolved.version with rfl | newest
    · exact UInt32.lt_irrefl _ newer
    · exact UInt32.lt_asymm newer newest

/-- Schemas that are all entered are not counted exactly when every name resolves as before. -/
theorem Sound.count_eq_zero_iff (h : registry.Sound) {count : Nat}
    (entered : registry.registerAll schemas = (.ok count, later)) :
    count = 0 ↔ ∀ name, later.get? name = registry.get? name := by
  induction schemas generalizing registry count with
  | nil =>
    cases entered
    exact iff_of_true rfl fun _ => rfl
  | cons schema schemas ih =>
    cases step : registry.register schema with
    | error e =>
      rw [registerAll, step] at entered
      cases entered
    | ok result =>
      obtain ⟨outcome, next⟩ := result
      have sound := h.register step
      cases rest : (next.registerAll schemas).1 with
      | error e =>
        rw [registerAll_cons step, rest] at entered
        cases entered
      | ok counted =>
        rw [registerAll_cons step, rest] at entered
        cases entered
        by_cases unchanged : outcome = .unchanged
        · subst unchanged
          obtain rfl : next = registry := by
            obtain ⟨-, -, ⟨-, same, -⟩ | ⟨-, ⟨other, -⟩ | ⟨_, -, -, other⟩⟩⟩ := register_eq_ok step
            · exact same
            · cases other
            · cases other
          exact ih sound (Prod.ext rest rfl)
        · rw [if_neg unchanged]
          refine iff_of_false (Nat.succ_ne_zero counted) fun same => ?_
          have evolves := (sound.precedes_registerAll schemas).evolves
          exact get?_ne_of_changed step unchanged evolves (same schema.name)

/-! ## Texts -/

/-- A load that fails has met a malformed text, or ends like the list of the schemas of the text. -/
theorem load_eq_error {text : String} {e : LoadError} (failed : (registry.load text).1 = .error e) :
    (∃ defect, TextDecoder.run (TextDecoder.list Schema.decode) text = .error defect ∧
      e = .malformed defect ∧ (registry.load text).2 = registry) ∨
    ∃ schemas error, TextDecoder.run (TextDecoder.list Schema.decode) text = .ok schemas ∧
      e = .refused error ∧ (registry.registerAll schemas).1 = .error error ∧
      (registry.load text).2 = (registry.registerAll schemas).2 := by
  unfold load at failed ⊢
  cases read : TextDecoder.run (TextDecoder.list Schema.decode) text with
  | error defect =>
    rw [read] at failed
    cases failed
    exact .inl ⟨defect, rfl, rfl, rfl⟩
  | ok schemas =>
    rw [read] at failed
    cases entered : (registry.registerAll schemas).1 with
    | ok count =>
      simp only [entered] at failed
      cases failed
    | error error =>
      simp only [entered] at failed
      cases failed
      exact .inr ⟨schemas, error, rfl, rfl, entered, rfl⟩

/-- **What a failed load leaves.** When a load fails for a malformed text, the registry is as it
was. Otherwise the text has a schema that is refused, after others that were all entered, and the
registry is what these lead to: it refuses the one schema, for the reason that the load gives. Each
name resolves as it did, or to one of the schemas before, where it resolved to nothing or to a
schema of an earlier version. All names resolve as they did exactly when none of the schemas before
was counted. -/
theorem load_keeps_before (reachable : registry.Reachable) {text : String} {e : LoadError}
    (failed : (registry.load text).1 = .error e) :
    (∃ defect, e = .malformed defect ∧ (registry.load text).2 = registry) ∨
    ∃ before refused after count error,
      TextDecoder.run (TextDecoder.list Schema.decode) text = .ok (before ++ refused :: after) ∧
      e = .refused error ∧
      registry.registerAll before = (.ok count, (registry.load text).2) ∧
      (registry.load text).2.register refused = .error error ∧
      (∀ name, (registry.load text).2.get? name = registry.get? name ∨
        ∃ schema ∈ before, schema.name = name ∧
          (registry.load text).2.get? name = some schema ∧
          ∀ earlier, registry.get? name = some earlier → earlier.version < schema.version) ∧
      (count = 0 ↔ ∀ name, (registry.load text).2.get? name = registry.get? name) := by
  rcases load_eq_error failed with ⟨defect, -, rfl, same⟩ |
    ⟨schemas, error, read, rfl, refusal, left⟩
  · exact .inl ⟨defect, rfl, same⟩
  obtain ⟨before, refused, after, count, rfl, entered, refuses⟩ := registerAll_eq_error refusal
  rw [← left] at entered refuses
  have sound := reachable.sound
  have kept : (registry.registerAll before).2 = (registry.load text).2 := congrArg Prod.snd entered
  have evolves := (sound.precedes_registerAll before).evolves
  rw [kept] at evolves
  refine .inr ⟨before, refused, after, count, error, read, rfl, entered, refuses, fun name => ?_,
    sound.count_eq_zero_iff entered⟩
  rcases get?_registerAll registry before name with same | ⟨schema, mem, named, resolves⟩
  · exact .inl (kept ▸ same)
  · rw [kept] at resolves
    by_cases same : (registry.load text).2.get? name = registry.get? name
    · exact .inl same
    · refine .inr ⟨schema, mem, named, resolves, fun earlier known => ?_⟩
      obtain ⟨next, found, evolved⟩ := evolves name earlier known
      obtain rfl : schema = next := Option.some.inj (resolves.symm.trans found)
      rcases evolved.version with rfl | newer
      · exact absurd (resolves.trans known.symm) same
      · exact newer

end Registry

/-! ## The sample -/

namespace Sample

/-- Two schemas, where the name of the second one is no type name. -/
def misnamed : String :=
  "[\x7b\"name\":\"Figure\",\"contentClass\":\"empty\"\x7d," ++
    "\x7b\"name\":\"figure\",\"contentClass\":\"empty\"\x7d]"

end Sample

namespace Registry

/-- The second schema of the text is refused for its name. What is left is what the schemas before
it lead to, and one of them was counted. -/
theorem load_keeps_before_misnamed :
    empty.Reachable ∧
      (empty.load Sample.misnamed).1 = .error (.refused (.invalidName "figure")) ∧
      ∃ before count, empty.registerAll before = (.ok count, (empty.load Sample.misnamed).2) ∧
        count ≠ 0 := by
  have failed : (empty.load Sample.misnamed).1 = .error (.refused (.invalidName "figure")) := by rfl
  have left : (empty.load Sample.misnamed).2.get? "Figure" = some Sample.bareFigure := by rfl
  refine ⟨.empty, failed, ?_⟩
  obtain ⟨defect, other, -⟩ |
    ⟨before, refused, after, count, error, -, -, entered, -, -, decides⟩ :=
      load_keeps_before .empty failed
  · cases other
  · refine ⟨before, count, entered, fun nothing => ?_⟩
    cases left.symm.trans (decides.1 nothing "Figure")

/-- The load of that text fails, and figures are known after it, which they were not before. -/
theorem load_not_undone :
    empty.Reachable ∧
      (empty.load Sample.misnamed).1 = .error (.refused (.invalidName "figure")) ∧
      empty.get? "Figure" = none ∧
      (empty.load Sample.misnamed).2.get? "Figure" = some Sample.bareFigure :=
  ⟨.empty, by rfl, rfl, by rfl⟩

end Registry
end DocTree
