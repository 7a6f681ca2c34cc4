import DocTree.Engine
import DocTree.Proofs.Validation.Acceptance

/-!
# Entrances of an engine

A document is taken in from its text or from a value, or its text is only checked. All of them come
to the same: what one of them takes in has no violations for the other, and what fails for its
violations fails with those that the check lists, of which there is one at least. Texts without an
object are refused by all alike.

## Main definitions

* `Engine.AgreesOn` — the entrances come to the same on a text.

## Main statements

* `Engine.validate_cases` — what an object comes to.
* `Engine.entrance_cases` — what a text comes to, read and checked.
* `Engine.agreesOn` — the entrances come to the same on every text.
-/

namespace DocTree
namespace Engine

variable {engine : Engine} {tree : Node} {text : String} {document : Json}

/-! ## Objects -/

theorem result_validate_eq_ok_iff :
    (engine.validate document).result = .ok tree ↔
      (engine.validator.validate document).result = .ok tree :=
  Except.mapError_eq_ok_iff

/-- An object has a tree and no violation, or it fails with its violations, of which there is one at
least. -/
theorem validate_cases (engine : Engine) (document : Json) :
    (∃ tree, (engine.validate document).result = .ok tree ∧
      engine.validator.violations document = []) ∨
    ((engine.validate document).result =
        .error (.invalid ⟨engine.validator.violations document⟩) ∧
      engine.validator.violations document ≠ []) := by
  cases outcome : (engine.validator.validate document).result with
  | ok tree =>
    exact .inl ⟨tree, result_validate_eq_ok_iff.2 outcome,
      Validator.exists_result_iff.1 ⟨tree, outcome⟩⟩
  | error report =>
    have same : engine.validator.violations document = report.violations := by
      rw [Validator.violations, outcome]
    refine .inr ⟨?_, same ▸ Validator.violations_ne_nil outcome⟩
    rw [same]
    exact congrArg (Except.mapError EngineError.invalid) outcome

/-! ## Texts -/

theorem ingest_eq_error {error : EngineError} (refused : ingest text = .error error) :
    ∃ reason, error = .ingest reason := by
  unfold ingest at refused
  split at refused
  · exact ⟨_, (Except.error.inj refused).symm⟩
  · cases refused
  · exact ⟨_, (Except.error.inj refused).symm⟩

theorem checkText_eq (read : ingest text = .ok document) :
    (engine.checkText text).result = .ok (engine.validator.violations document) := by
  rw [checkText, read, Validator.violations]
  dsimp only
  obtain ⟨result, notices⟩ := engine.validator.validate document
  cases result <;> rfl

/-- Reading a value from a text, and then the tree from that value, is reading the tree. -/
theorem parse_eq_parseValue {value : Json} (read : Json.parse text = .ok value) :
    engine.parse text = engine.parseValue value := by
  rw [parse, ingest, read]
  cases value <;> rfl

/-- What a text comes to: it has a tree and no violations, it fails with the violations that the
check lists, or it is refused by both. -/
theorem entrance_cases (engine : Engine) (text : String) :
    (∃ tree, (engine.parse text).result = .ok tree ∧ (engine.checkText text).result = .ok []) ∨
    (∃ violations, violations ≠ [] ∧
      (engine.parse text).result = .error (.invalid ⟨violations⟩) ∧
      (engine.checkText text).result = .ok violations) ∨
    ∃ reason, (engine.parse text).result = .error (.ingest reason) ∧
      (engine.checkText text).result = .error (.ingest reason) := by
  cases read : ingest text with
  | error error =>
    obtain ⟨reason, rfl⟩ := ingest_eq_error read
    exact .inr (.inr ⟨reason, by rw [parse, read], by rw [checkText, read]⟩)
  | ok document =>
    have parsed : engine.parse text = engine.validate document := by rw [parse, read]
    rw [parsed, checkText_eq read]
    obtain ⟨tree, outcome, clean⟩ | ⟨outcome, found⟩ := engine.validate_cases document
    · exact .inl ⟨tree, outcome, congrArg Except.ok clean⟩
    · exact .inr (.inl ⟨_, found, outcome, rfl⟩)

/-- The entrances of an engine come to the same on a text. -/
structure AgreesOn (engine : Engine) (text : String) : Prop where
  /-- The check lists nothing exactly when the text has a tree. -/
  accepted : (engine.checkText text).result = .ok [] ↔
    ∃ tree, (engine.parse text).result = .ok tree
  /-- The check lists violations exactly when reading fails with these. -/
  rejected : ∀ violations, violations ≠ [] →
    ((engine.checkText text).result = .ok violations ↔
      (engine.parse text).result = .error (.invalid ⟨violations⟩))
  /-- Reading never fails with an empty report. -/
  reported : ∀ report, (engine.parse text).result = .error (.invalid report) →
    report.violations ≠ []
  /-- Where the check lists neither, both refuse the text for the same reason. -/
  refused : (∀ violations, (engine.checkText text).result ≠ .ok violations) →
    ∃ reason, (engine.checkText text).result = .error (.ingest reason) ∧
      (engine.parse text).result = .error (.ingest reason)
  /-- The value that the text holds comes to what the text does. -/
  value : ∀ value, Json.parse text = .ok value → engine.parse text = engine.parseValue value

/-- The entrances come to the same on every text. -/
theorem agreesOn (engine : Engine) (text : String) : engine.AgreesOn text := by
  have outcome := engine.entrance_cases text
  refine ⟨?accepted, ?rejected, ?reported, ?refused, fun value => parse_eq_parseValue⟩
  -- What a text can come to are three different results of each entrance.
  all_goals
    obtain ⟨tree, parsed, checked⟩ | ⟨violations, found, parsed, checked⟩ |
      ⟨reason, parsed, checked⟩ := outcome
    all_goals
      simp only [parsed, checked]
      grind

end Engine
end DocTree
