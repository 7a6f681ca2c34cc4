import DocTree.CommandLine.MappingText

/-!
# Arguments

A request is written as a command with its files, options before and after the command, and
`--` before files that begin with a dash. An option takes its value from the same argument or
from the next one, which may not look like an option. No option is given twice in one place.

## Main definitions

- `Request`: what can be asked for.
- `UsageError`: why arguments are refused.
- `Request.parse`: the request of a list of arguments.
-/

namespace DocTree.CommandLine

/-! ## Requests -/

/-- How reports are written. -/
inductive ReportFormat where
  | text
  | json
deriving DecidableEq, Repr

/-- In which direction values are moved. -/
inductive Direction where
  | promote
  | demote
deriving DecidableEq, Repr

/-- A command with its own arguments. -/
inductive Command where
  | check (files : List String) (format : ReportFormat)
  | move (direction : Direction) (file typeName : String) (mapping : Mapping) (indent : Bool)

/-- A command, and the files with further schemas and with settings. -/
structure Request where
  command : Command
  schemas : Option String
  settings : Option String

/-- Why there is no request. -/
inductive UsageError where
  /-- The arguments do not fit together. -/
  | malformed
  /-- The value of `--map` is no mapping. -/
  | mapping (error : MappingTextError)
  /-- Help was asked for. -/
  | helpAsked
deriving DecidableEq, Repr

/-! ## Options -/

/-- What an option can be. -/
inductive OptionName where
  | schemas
  | config
  | format
  | typeName
  | map
  | pretty
  | help
deriving DecidableEq, Repr

namespace OptionName

/-- The options of one dash and a letter. -/
def letter : OptionName → Char
  | .schemas => 's'
  | .config => 'c'
  | .format => 'f'
  | .typeName => 't'
  | .map => 'm'
  | .pretty => 'p'
  | .help => 'h'

/-- The options of two dashes and a word. -/
def word : OptionName → String
  | .schemas => "schemas"
  | .config => "config"
  | .format => "format"
  | .typeName => "type"
  | .map => "map"
  | .pretty => "pretty"
  | .help => "help"

/-- Whether an option has a value. -/
def hasValue : OptionName → Bool
  | .pretty => false
  | .help => false
  | _ => true

/-- The options that may stand before the command, and after any. -/
def common : List OptionName := [schemas, config, help]

/-- The options of `check`. -/
def ofCheck : List OptionName := format :: common

/-- The options of `promote` and `demote`. -/
def ofMove : List OptionName := typeName :: map :: pretty :: common

end OptionName

/-- What options and files came to so far. -/
structure Given where
  schemas : Option String := none
  settings : Option String := none
  format : Option ReportFormat := none
  typeName : Option String := none
  mapping : Option Mapping := none
  indent : Bool := false
  files : List String := []

namespace Given

/-- A part that was not given before. -/
def fresh {α : Type} (current : Option α) : Except UsageError Unit :=
  if current.isSome then .error .malformed else .ok ()

/-- The name of a file, which is never empty. -/
def fileName (value : String) : Except UsageError String :=
  if value.isEmpty then .error .malformed else .ok value

/-- Enters the value of an option. -/
def setValue (given : Given) (option : OptionName) (value : String) : Except UsageError Given :=
  match option with
  | .schemas => do
    fresh given.schemas
    return { given with schemas := some (← fileName value) }
  | .config => do
    fresh given.settings
    return { given with settings := some (← fileName value) }
  | .format => do
    fresh given.format
    match value with
    | "text" => return { given with format := some .text }
    | "json" => return { given with format := some .json }
    | _ => .error .malformed
  | .typeName => do
    fresh given.typeName
    return { given with typeName := some value }
  | .map => do
    fresh given.mapping
    return { given with mapping := some (← (Mapping.parse value).mapError .mapping) }
  | .pretty => .error .malformed
  | .help => .error .malformed

/-- Enters an option without value. -/
def setFlag (given : Given) : OptionName → Except UsageError Given
  | .pretty => if given.indent then .error .malformed else .ok { given with indent := true }
  | .help => .error .helpAsked
  | _ => .error .malformed

/-- Enters a file, if there may be one more. -/
def addFile (given : Given) (name : String) : Except UsageError Given := do
  return { given with files := given.files ++ [← fileName name] }

end Given

/-! ## Scanning -/

/-- The last option with a value, while that is due or not yet entered. -/
inductive Pending where
  | nothing
  | due (option : OptionName)
  | held (option : OptionName) (value : String)

/-- Arguments under way. -/
structure Scan where
  given : Given := {}
  pending : Pending := .nothing

namespace Scan

/-- Enters the value that is held. It is an error when one is still due. -/
def settle (scan : Scan) : Except UsageError Scan :=
  match scan.pending with
  | .nothing => .ok scan
  | .due _ => .error .malformed
  | .held option value => do return { given := ← scan.given.setValue option value }

/-- Enters an option without value. -/
def flag (scan : Scan) (option : OptionName) : Except UsageError Scan := do
  let scan ← scan.settle
  return { given := ← scan.given.setFlag option }

/-- Enters an option with its value. -/
def value (scan : Scan) (option : OptionName) (text : String) : Except UsageError Scan := do
  let scan ← scan.settle
  return { given := ← scan.given.setValue option text }

/-- Expects the value of an option in the next argument. -/
def expect (scan : Scan) (option : OptionName) : Except UsageError Scan := do
  return { ← scan.settle with pending := .due option }

/-- Enters an option of two dashes, with what follows them. -/
def long (options : List OptionName) (scan : Scan) (text : List Char) : Except UsageError Scan :=
  let word := String.ofList (text.takeWhile (· ≠ '='))
  let attached := text.dropWhile (· ≠ '=')
  match options.find? (·.word = word), attached with
  | none, _ => .error .malformed
  | some option, [] => if option.hasValue then scan.expect option else scan.flag option
  | some option, _ :: text =>
    if option.hasValue then scan.value option (String.ofList text) else .error .malformed

/-- Enters options of one dash, with what follows it: letters of options without value, and then
perhaps one with a value, which is the rest. -/
def short (options : List OptionName) : Scan → List Char → Except UsageError Scan
  | scan, [] => .ok scan
  | scan, letter :: rest =>
    match options.find? (·.letter = letter) with
    | none => .error .malformed
    | some option =>
      if option.hasValue then
        match rest with
        | [] => scan.expect option
        | '=' :: text => scan.value option (String.ofList text)
        | text => scan.value option (String.ofList text)
      else do short options (← scan.flag option) rest

/-- Enters an argument that is no option: a value that is due, or else a file. -/
def plain (limit : Option Nat) (scan : Scan) (text : String) : Except UsageError Scan :=
  match scan.pending with
  | .due option => .ok { scan with pending := .held option text }
  | _ =>
    if limit.any (· ≤ scan.given.files.length) then .error .malformed
    else do
      let scan ← scan.settle
      return { given := ← scan.given.addFile text }

/-- Enters arguments after `--`. -/
def files (limit : Option Nat) : Scan → List String → Except UsageError Scan
  | scan, [] => scan.settle
  | scan, text :: rest =>
    if limit.any (· ≤ scan.given.files.length) then .error .malformed
    else do
      let scan ← scan.settle
      files limit { given := ← scan.given.addFile text } rest

/-- Enters the arguments of a command. -/
def all (options : List OptionName) (limit : Option Nat) :
    Scan → List String → Except UsageError Scan
  | scan, [] => scan.settle
  | scan, text :: rest =>
    match text.toList with
    | ['-', '-'] => files limit scan rest
    | '-' :: '-' :: word => do all options limit (← scan.long options word) rest
    | '-' :: letter :: letters => do
      all options limit (← scan.short options (letter :: letters)) rest
    | _ => do all options limit (← scan.plain limit text) rest

/-- Enters the arguments before a command, and returns the command with what follows it. The
last of them may still be held. -/
def untilCommand : Scan → List String → Except UsageError (Scan × String × List String)
  | _, [] => .error .malformed
  | scan, text :: rest =>
    match text.toList with
    | ['-', '-'] => .error .malformed
    | '-' :: '-' :: word => do untilCommand (← scan.long OptionName.common word) rest
    | '-' :: letter :: letters => do
      untilCommand (← scan.short OptionName.common (letter :: letters)) rest
    | _ =>
      match scan.pending with
      | .due option => untilCommand { scan with pending := .held option text } rest
      | _ => .ok (scan, text, rest)

end Scan

/-! ## The request of the arguments -/

/-- A part that has to be given. -/
def demand {α : Type} (part : Option α) : Except UsageError α :=
  match part with
  | some a => .ok a
  | none => .error .malformed

/-- The request to move values in a file. -/
def moveCommand (direction : Direction) (given : Given) : Except UsageError Command := do
  let file ← demand given.files.head?
  let typeName ← demand given.typeName
  let mapping ← demand given.mapping
  return .move direction file typeName mapping given.indent

/-- The request to check files. -/
def checkCommand (given : Given) : Except UsageError Command :=
  if given.files.isEmpty then .error .malformed
  else .ok (.check given.files (given.format.getD .text))

/-- The commands that there are. -/
def commandNames : List String := ["check", "promote", "demote", "help"]

/-- What asking for help comes to: it may name one command, and nothing else. -/
def helpOn : List String → UsageError
  | [] => .helpAsked
  | [name] => if commandNames.contains name then .helpAsked else .malformed
  | _ => .malformed

/-- The request of a list of arguments. What is given after the command prevails, and is looked
at first. -/
def Request.parse (arguments : List String) : Except UsageError Request := do
  let (scan, name, rest) ← Scan.untilCommand {} arguments
  let (given, command) ← match name with
    | "check" => do
      let scan ← Scan.all OptionName.ofCheck none {} rest
      pure (scan.given, ← checkCommand scan.given)
    | "promote" => do
      let scan ← Scan.all OptionName.ofMove (some 1) {} rest
      pure (scan.given, ← moveCommand .promote scan.given)
    | "demote" => do
      let scan ← Scan.all OptionName.ofMove (some 1) {} rest
      pure (scan.given, ← moveCommand .demote scan.given)
    | "help" => .error (helpOn rest)
    | _ => .error .malformed
  let before := (← scan.settle).given
  return {
    command,
    schemas := given.schemas <|> before.schemas,
    settings := given.settings <|> before.settings }

end DocTree.CommandLine
