import DocTree.Json.Reader
import DocTree.Migration.Steps
import DocTree.Validation.Check

/-!
# The engine

An engine holds a registry and settings, and offers what can be done with documents: reading and
checking them, moving data to fields and back, and writing them.

## Main definitions

- `EngineError`: why the engine fails, and its words.
- `Engine.parse`, `Engine.parseValue`, `Engine.checkText`: a document from text or from a value.
- `Engine.promote`, `Engine.demote`: moves of declared fields.
-/

namespace DocTree

/-- Why a document cannot be taken in. -/
inductive IngestError where
  | malformed (fault : TextFault)
  | notObject (found : Json)
deriving Repr

/-- The words for a refusal. -/
def IngestError.message : IngestError → String
  | .malformed fault => "malformed JSON: " ++ fault.message
  | .notObject found => "root must be an object, found " ++ found.kindName

/-- Why the engine fails. -/
inductive EngineError where
  | registry (error : RegistryError)
  | invalid (report : Report)
  | promotion (error : PromotionError)
  | rewriting (error : RewriteError)
  | ingest (error : IngestError)
  | malformedSchemas (defect : TextDefect)
  | settings (error : SettingsError)
deriving Repr

namespace EngineError

/-- The words for a failure. -/
def message : EngineError → String
  | .registry error => "Registry error: " ++ error.message
  | .invalid report => report.message
  | .promotion error => "Promotion error: " ++ error.message
  | .rewriting error => "Transform error: " ++ error.message
  | .ingest error => "Ingest error: " ++ error.message
  | .malformedSchemas defect => "Serialization error: " ++ defect.message
  | .settings error => "Invalid configuration: " ++ error.message

/-- The words for what is behind a failure, where it is told apart from the failure itself. -/
def cause? : EngineError → Option String
  | .registry error => some error.message
  | .promotion error => some error.message
  | .rewriting error => some error.message
  | .malformedSchemas defect => some defect.message
  | .invalid _ => none
  | .ingest _ => none
  | .settings _ => none

/-- The failure to load schemas. -/
def ofLoad : Registry.LoadError → EngineError
  | .malformed defect => .malformedSchemas defect
  | .refused error => .registry error

end EngineError

/-- A registry with settings that have been checked. -/
structure Engine where
  registry : Registry
  settings : Settings := {}

namespace Engine

/-- The engine of a registry and settings, which have to be within the supported range. -/
def make (registry : Registry) (settings : Settings) : Except EngineError Engine := do
  settings.check.mapError .settings
  return { registry, settings }

/-- What documents are checked against. -/
def validator (engine : Engine) : Validator := ⟨engine.registry, engine.settings.validation⟩

/-- The object that a text holds. -/
def ingest (text : String) : Except EngineError Json :=
  match Json.parse text with
  | .error fault => .error (.ingest (.malformed fault))
  | .ok (.object members) => .ok (.object members)
  | .ok found => .error (.ingest (.notObject found))

/-- The tree of an object. -/
def validate (engine : Engine) (document : Json) : Noted (Except EngineError Node) :=
  let ⟨result, notices⟩ := engine.validator.validate document
  ⟨result.mapError .invalid, notices⟩

/-- The tree of a text. -/
def parse (engine : Engine) (text : String) : Noted (Except EngineError Node) :=
  match ingest text with
  | .error e => ⟨.error e, []⟩
  | .ok document => engine.validate document

/-- The tree of a value. -/
def parseValue (engine : Engine) (value : Json) : Noted (Except EngineError Node) :=
  match value with
  | .object members => engine.validate (.object members)
  | found => ⟨.error (.ingest (.notObject found)), []⟩

/-- The violations of a text. -/
def checkText (engine : Engine) (text : String) : Noted (Except EngineError (List Violation)) :=
  match ingest text with
  | .error e => ⟨.error e, []⟩
  | .ok document =>
    match engine.validator.validate document with
    | ⟨.ok _, notices⟩ => ⟨.ok [], notices⟩
    | ⟨.error report, notices⟩ => ⟨.ok report.violations, notices⟩

/-- A move of fields that the type has to declare. -/
def move (engine : Engine) (promotion : Promotion)
    (run : Node → Noted (Except PromotionError Node)) (tree : Node) :
    Noted (Except EngineError Node) :=
  match promotion.checkDeclared engine.registry with
  | .error e => ⟨.error (.promotion e), []⟩
  | .ok () =>
    let ⟨result, notices⟩ := run tree
    ⟨result.mapError .promotion, notices⟩

/-- Moves entries of `data` to fields, in the nodes of a type. -/
def promote (engine : Engine) (tree : Node) (typeName : String) (mapping : Mapping) :
    Noted (Except EngineError Node) :=
  engine.move ⟨typeName, mapping⟩ (Promotion.promote ⟨typeName, mapping⟩) tree

/-- Moves fields to entries of `data`, in the nodes of a type. -/
def demote (engine : Engine) (tree : Node) (typeName : String) (mapping : Mapping) :
    Noted (Except EngineError Node) :=
  engine.move ⟨typeName, mapping⟩ (Promotion.demote ⟨typeName, mapping⟩) tree

/-- The migrations that the schemas declare. -/
def migrations (engine : Engine) : Noted Migrations := Migrations.ofRegistry engine.registry

/-- The text of a tree, on lines of its own if asked for. -/
def render (tree : Node) (indent : Bool) : String :=
  if indent then tree.indentedText else tree.text

end Engine

/-- A value of a field: its own, or the default that its type declares. -/
def Registry.fieldValue? (registry : Registry) (node : Node) (field : String) : Option Json :=
  node.field? field <|>
    ((registry.get? node.typeName).bind (·.fields.get? field)).bind (·.defaultValue)

end DocTree
