import DocTree.CommandLine.Arguments
import DocTree.Engine

/-!
# The command line

Documents are checked, or one document has values moved between `data` and fields. Files are
looked up by name; what the command writes and how it ends is the result.

## Main definitions

- `Files`, `FileError`: the texts of files, and why there is none.
- `Completed`: what a command wrote, and its exit status.
- `Request.run`: carries out a request.
- `runArguments`: carries out the request of arguments, if they are one.
-/

namespace DocTree.CommandLine

/-! ## Files -/

/-- Why a file cannot be read. -/
inductive FileError where
  | absent
  | notPermitted
  | notDirectory
  | isDirectory
  | nameTooLong
  | notText
  | other (words : String)
deriving DecidableEq, Repr

/-- The words for a refusal, with its number in the system. -/
def FileError.message : FileError → String
  | .absent => "No such file or directory (os error 2)"
  | .notPermitted => "Permission denied (os error 13)"
  | .notDirectory => "Not a directory (os error 20)"
  | .isDirectory => "Is a directory (os error 21)"
  | .nameTooLong => "File name too long (os error 36)"
  | .notText => "stream did not contain valid UTF-8"
  | .other words => words

/-- The text of a file, or why it cannot be read. -/
abbrev Files := String → Except FileError String

/-- What a command wrote, and its exit status. A refused mapping is told apart. -/
structure Completed where
  status : Nat
  output : String := ""
  errors : String := ""
  refusedMapping : Option MappingTextError := none

/-! ## Failures -/

/-- A failure: its words, and the causes behind it, the nearest first. -/
structure Failure where
  words : String
  causes : List String := []

namespace Failure

/-- A failure of the engine. -/
def ofEngine (error : EngineError) : Failure := ⟨error.message, error.cause?.toList⟩

/-- A failure in a wider context. -/
def within (context : String) (failure : Failure) : Failure :=
  ⟨context, failure.words :: failure.causes⟩

/-- The words on one line. -/
def line (failure : Failure) : String := ": ".intercalate (failure.words :: failure.causes)

/-- A text whose lines after the first are indented. -/
def indentLines (indent : String) (text : String) : String :=
  ("\n" ++ indent).intercalate ((Text.splitAt '\n' text.toList).map String.ofList)

/-- The causes below the words, numbered when there are several. -/
def text (failure : Failure) : String :=
  let causes := match failure.causes with
    | [] => ""
    | [cause] => "\n\nCaused by:\n    " ++ indentLines "    " cause
    | causes => "\n\nCaused by:" ++ String.join (causes.mapIdx fun place cause =>
        "\n" ++ String.ofList (List.replicate (5 - place.repr.length) ' ') ++ place.repr ++ ": " ++
          indentLines "       " cause)
  "Error: " ++ failure.words ++ causes ++ "\n"

end Failure

/-- The text of a file that has to be there. -/
def readFile (files : Files) (name : String) : Except Failure String :=
  (files name).mapError fun reason => ⟨"Failed to read " ++ name, [reason.message]⟩

/-! ## The engine -/

/-- The reference types, and those of a file. -/
def loadRegistry (files : Files) : Option String → Except Failure Registry
  | none => .ok .reference
  | some name => do
    let text ← readFile files name
    match Registry.reference.load text with
    | (.ok _, registry) => return registry
    | (.error e, _) =>
      .error ((Failure.ofEngine (.ofLoad e)).within ("Failed to load schemas from " ++ name))

/-- The default settings, or those of a file. -/
def loadSettings (files : Files) : Option String → Except Failure Settings
  | none => .ok {}
  | some name => do
    let text ← readFile files name
    (Settings.parse text).mapError fun e =>
      (Failure.ofEngine (.settings e)).within ("Failed to load config from " ++ name)

/-- The engine of a request. -/
def Request.engine (request : Request) (files : Files) : Except Failure Engine := do
  let registry ← loadRegistry files request.schemas
  let settings ← loadSettings files request.settings
  (Engine.make registry settings).mapError .ofEngine

/-! ## Checking files -/

/-- What checking a file came to. -/
structure FileReport where
  file : String
  error : Option String
  violations : List Violation

namespace FileReport

/-- Checks a file. -/
def ofFile (engine : Engine) (files : Files) (file : String) : FileReport :=
  let outcome : Except Failure (List Violation) := do
    let text ← readFile files file
    (engine.checkText text).result.mapError .ofEngine
  match outcome with
  | .ok violations => ⟨file, none, violations⟩
  | .error failure => ⟨file, some failure.line, []⟩

/-- Whether a file is a valid document. -/
def isClean (report : FileReport) : Bool := report.error.isNone && report.violations.isEmpty

/-- The lines on a file. -/
def lines (report : FileReport) : List String :=
  match report.error with
  | some error => [report.file ++ ": error: " ++ error]
  | none =>
    if report.violations.isEmpty then [report.file ++ ": ok"]
    else report.violations.map fun violation => report.file ++ ":" ++ violation.text

/-- The JSON form, in the order in which it is written. -/
def toJson (report : FileReport) : Json :=
  .object <|
    ("file", .string report.file) :: optionalMember "error" Json.string report.error ++
      [("violations", (Report.mk report.violations).toJson)]

end FileReport

/-- The text of reports. -/
def writeReports (reports : List FileReport) : ReportFormat → String
  | .json => (Json.array (reports.map FileReport.toJson)).indented ++ "\n"
  | .text => String.join ((reports.flatMap FileReport.lines).map (· ++ "\n"))

/-- Checks files. The status tells whether all are valid. -/
def checkFiles (engine : Engine) (files : Files) (names : List String) (format : ReportFormat) :
    Completed :=
  let reports := names.map (FileReport.ofFile engine files)
  { status := if reports.all FileReport.isClean then 0 else 1,
    output := writeReports reports format }

/-! ## Moving values -/

/-- Moves values in the document of a file, and writes the document. -/
def moveInFile (engine : Engine) (files : Files) (direction : Direction) (file typeName : String)
    (mapping : Mapping) (indent : Bool) : Except Failure Completed := do
  let text ← readFile files file
  let tree ← (engine.parse text).result.mapError fun e =>
    (Failure.ofEngine e).within (file ++ " is not a valid document")
  let moved := match direction with
    | .promote => engine.promote tree typeName mapping
    | .demote => engine.demote tree typeName mapping
  let tree ← moved.result.mapError .ofEngine
  return { status := 0, output := Engine.render tree indent ++ "\n" }

/-! ## Whole commands -/

/-- Carries out a request. -/
def Request.run (request : Request) (files : Files) : Completed :=
  let outcome := do
    let engine ← request.engine files
    match request.command with
    | .check names format => return checkFiles engine files names format
    | .move direction file typeName mapping indent =>
      moveInFile engine files direction file typeName mapping indent
  match outcome with
  | .ok completed => completed
  | .error failure => { status := 1, errors := failure.text }

/-- How the command is used. -/
def usage : String :=
  "Usage: check [--format text|json] FILE... | promote|demote --type TYPE --map KEY=FIELD,... " ++
    "[--pretty] FILE\nOptions: --schemas FILE, --config FILE\n"

/-- Carries out the request of arguments, if they are one. -/
def runArguments (arguments : List String) (files : Files) : Completed :=
  match Request.parse arguments with
  | .ok request => request.run files
  | .error .helpAsked => { status := 0, output := usage }
  | .error .malformed => { status := 2, errors := usage }
  | .error (.mapping error) =>
    { status := 2, errors := "invalid mapping: " ++ error.message ++ "\n",
      refusedMapping := some error }

/-- The names of the files that a request may read. -/
def Request.fileNames (request : Request) : List String :=
  request.schemas.toList ++ request.settings.toList ++
    (match request.command with
      | .check names _ => names
      | .move _ file _ _ _ => [file])

end DocTree.CommandLine
