import DocTree.Json.Printer
import DocTree.Path

/-!
# Violations

Every rule that a document breaks is reported, with the place, the type and the kind of failure.

## Main definitions

- `ViolationKind`, `Violation`: a kind of failure, and a failure at a place.
- `Report`: the violations of a document, in the order in which they were found.
-/

namespace DocTree

/-- The kinds of failures. -/
inductive ViolationKind where
  | unknownType
  | contentShape
  | missingField
  | fieldType
  | unexpectedField
  | invalidChildClass
  | depthLimit
deriving DecidableEq, Repr

namespace ViolationKind

/-- All kinds, in the order in which they are counted. -/
def all : List ViolationKind :=
  [unknownType, contentShape, missingField, fieldType, unexpectedField, invalidChildClass,
    depthLimit]

/-- The written name. -/
def name : ViolationKind → String
  | .unknownType => "UnknownTypeError"
  | .contentShape => "ContentShapeError"
  | .missingField => "MissingFieldError"
  | .fieldType => "FieldTypeError"
  | .unexpectedField => "UnexpectedFieldError"
  | .invalidChildClass => "InvalidChildClassError"
  | .depthLimit => "DepthLimitError"

/-- Reads a kind. -/
def decode : Decoder ViolationKind := Decoder.choice (all.map fun kind => (kind.name, kind))

end ViolationKind

/-- A failure at a place. -/
structure Violation where
  path : Path
  kind : ViolationKind
  message : String
  typeName : Option String
deriving DecidableEq, Repr

namespace Violation

/-- The line that shows a violation. -/
def text (violation : Violation) : String :=
  violation.path.text ++
    (match violation.typeName with
      | some name => " [" ++ name ++ "] "
      | none => " ") ++
    violation.kind.name ++ ": " ++ violation.message

/-- The JSON form, in the order in which it is written. -/
def toJson (violation : Violation) : Json :=
  .object
    [ ("path", violation.path.toJson),
      ("kind", .string violation.kind.name),
      ("message", .string violation.message),
      ("typeName", (violation.typeName.map Json.string).getD .null) ]

/-- Reads a violation. -/
def decode : Decoder Violation :=
  Decoder.record "Violation"
    [ Format.slot "path" .refused Path.decode fun path violation => { violation with path },
      Format.slot "kind" .refused ViolationKind.decode
        fun kind violation => { violation with kind },
      Format.slot "message" .refused Decoder.string
        fun message violation => { violation with message },
      Format.slot "typeName" .refusedInList (Decoder.optional Decoder.string)
        fun typeName violation => { violation with typeName } ]
    ⟨.root, .unknownType, "", none⟩

end Violation

/-- The violations of a document. -/
structure Report where
  violations : List Violation
deriving DecidableEq, Repr

namespace Report

/-- The words for a report. -/
def message (report : Report) : String :=
  "document failed validation with " ++ report.violations.length.repr ++ " violation(s)"

/-- How many violations are of a kind. -/
def count (report : Report) (kind : ViolationKind) : Nat :=
  report.violations.countP (·.kind = kind)

/-- The JSON form. -/
def toJson (report : Report) : Json := .array (report.violations.map Violation.toJson)

/-- Reads a report. -/
def decode : Decoder Report := Decoder.map Report.mk (Decoder.list Violation.decode)

end Report
end DocTree
