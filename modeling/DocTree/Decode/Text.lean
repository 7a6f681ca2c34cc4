import DocTree.Decode.Value
import DocTree.Json.Skip

/-!
# Typed data from JSON text

Text is read as it comes: the members of an object are visited in their written order, a known
key may not be repeated, and the first fault of the text or mismatch of its data is reported
where it is met. Values of unknown keys are passed over. A fixed number of containers may be open
at a time.

## Main definitions

- `TextDecoder`: reads typed data from text. It is a `Format`.
- `TextDecoder.run`: the data that a whole text holds.
-/

namespace DocTree

/-- What is wrong with a text that should hold typed data. -/
inductive Defect where
  | syntaxFault (cause : Fault)
  | mismatch (cause : Mismatch)
deriving Repr

/-- The words for a defect. -/
def Defect.message : Defect → String
  | .syntaxFault cause => cause.message
  | .mismatch cause => cause.message

/-- A defect with its position. -/
structure TextDefect where
  defect : Defect
  position : Position
deriving Repr

/-- The words for a defect and its position. -/
def TextDefect.message (e : TextDefect) : String := e.defect.message ++ e.position.suffix

/-- A result, or a defect at its place. -/
abbrev TypedAttempt := Except (At Defect)

/-- Reads an `α` from the text that is left, while `room` more containers may be opened. -/
def TextDecoder (α : Type) := (room : Nat) → List Char → TypedAttempt (α × List Char)

namespace TextDecoder

variable {α β σ : Type}

/-- Takes over a reader of the text itself. -/
def lift (attempt : Attempt α) : TypedAttempt α :=
  attempt.mapError fun stop => { stop with cause := .syntaxFault stop.cause }

/-- Stops at a mismatch before what is left. -/
def mismatchAt (mismatch : Mismatch) (rest : List Char) : TypedAttempt α :=
  .error ⟨.mismatch mismatch, rest, 0⟩

/-- Stops at a value of another type than expected: after a scalar, before a container. -/
def wrongType (expected : String) (text : List Char) : TypedAttempt α :=
  match skipBlanks text with
  | '[' :: rest => mismatchAt (.wrongType (.array []) expected) ('[' :: rest)
  | '\x7b' :: rest => mismatchAt (.wrongType (.object []) expected) ('\x7b' :: rest)
  | text => do
    match ← lift (readNext none [] text) with
    | .finished value rest => mismatchAt (.wrongType value expected) rest
    | .due _ rest => lift (stopAt .expectedValue rest)

/-- Opens a container, if there is room for it. -/
def entering (room : Nat) (text : List Char) (inside : (room : Nat) → TypedAttempt α) :
    TypedAttempt α :=
  match room with
  | 0 => lift (stopOn .nestedTooDeep text)
  | room + 1 => inside room

/-- Changes what was read. -/
def map (f : α → β) (decoder : TextDecoder α) : TextDecoder β := fun room text => do
  let (value, rest) ← decoder room text
  return (f value, rest)

/-- A string. -/
def string : TextDecoder String := fun _ text =>
  match skipBlanks text with
  | '"' :: rest => lift (readString rest)
  | _ => wrongType "a string" text

/-- A scalar that passes a test; others are of the wrong type. -/
def scalar (expected : String) (starts : Char → Bool) (check : Json → Except Mismatch α) :
    TextDecoder α := fun _ text =>
  match skipBlanks text with
  | c :: rest =>
    if starts c then do
      match ← lift (readNext none [] (c :: rest)) with
      | .finished value rest =>
        match check value with
        | .ok result => return (result, rest)
        | .error mismatch => mismatchAt mismatch rest
      | .due _ rest => lift (stopAt .expectedValue rest)
    else wrongType expected text
  | [] => lift (stopAt .endOfValue [])

/-- A boolean. -/
def boolean : TextDecoder Bool :=
  scalar "a boolean" (fun c => c = 't' || c = 'f') Decoder.boolean

/-- The natural number of a width. -/
def natural (width : Width) : TextDecoder Nat :=
  scalar width.name (fun c => c = '-' || c.isDigit) (Decoder.naturalOf width)

/-- Any value. -/
def json : TextDecoder Json := fun room text => lift (readValue (some room) text)

/-- A value or null. -/
def optional (decoder : TextDecoder α) : TextDecoder (Option α) := fun room text =>
  match skipBlanks text with
  | 'n' :: rest => do return (none, ← lift (readWord ['u', 'l', 'l'] rest))
  | text => do
    let (value, rest) ← decoder room text
    return (some value, rest)

/-- What comes next in a container: an item or a key, or the end and what follows it. -/
inductive Next (α : Type) where
  | found (next : α)
  | ended (rest : List Char)

/-! ## Arrays -/

/-- Where the next item of an array starts. -/
def nextItem (first : Bool) (text : List Char) : Attempt (Next (List Char)) :=
  match skipBlanks text with
  | [] => stopAt .endOfList []
  | ']' :: rest => .ok (.ended rest)
  | c :: rest =>
    if first then .ok (.found (c :: rest))
    else if c = ',' then
      match skipBlanks rest with
      | [] => stopAt .endOfValue []
      | ']' :: rest => stopOn .trailingComma (']' :: rest)
      | rest => .ok (.found rest)
    else stopOn .expectedListEnd (c :: rest)

/-- Reads items up to the end of an array; `read` holds the items so far, last first. -/
def itemsLoop (decoder : TextDecoder α) (room : Nat) :
    (fuel : Nat) → List α → List Char → TypedAttempt (List α × List Char)
  | 0, _, text => lift (stopAt .endOfList text)
  | fuel + 1, read, text => do
    match ← lift (nextItem read.isEmpty text) with
    | .ended rest => return (read.reverse, rest)
    | .found text =>
      let (item, rest) ← decoder room text
      itemsLoop decoder room fuel (item :: read) rest

/-- An array. -/
def list (decoder : TextDecoder α) : TextDecoder (List α) := fun room text =>
  match skipBlanks text with
  | '[' :: rest => entering room ('[' :: rest) fun room =>
    itemsLoop decoder room (rest.length + 1) [] rest
  | _ => wrongType "a sequence" text

/-! ## Objects -/

/-- The next key of an object, with what follows it. -/
def nextKey (first : Bool) (text : List Char) : Attempt (Next (String × List Char)) :=
  match skipBlanks text with
  | [] => stopAt .endOfObject []
  | '\x7d' :: rest => .ok (.ended rest)
  | c :: rest =>
    let start :=
      if first then .ok (c :: rest)
      else if c = ',' then .ok (skipBlanks rest)
      else stopOn .expectedObjectEnd (c :: rest)
    start.bind fun
      | [] => stopAt .endOfValue []
      | '"' :: rest => .found <$> readString rest
      | '\x7d' :: rest => stopOn .trailingComma ('\x7d' :: rest)
      | rest => stopOn .keyNotString rest

/-- What follows the colon after a key. -/
def readColon (text : List Char) : Attempt (List Char) :=
  match skipBlanks text with
  | ':' :: rest => .ok rest
  | [] => stopAt .endOfObject []
  | rest => stopOn .expectedColon rest

/-- Reads members up to the end of an object; `read` holds the members so far, last first. -/
def tableLoop (decoder : TextDecoder α) (room : Nat) :
    (fuel : Nat) → List (String × α) → List Char → TypedAttempt (List (String × α) × List Char)
  | 0, _, text => lift (stopAt .endOfObject text)
  | fuel + 1, read, text => do
    match ← lift (nextKey read.isEmpty text) with
    | .ended rest => return (read.reverse, rest)
    | .found (key, rest) =>
      let (value, rest) ← decoder room (← lift (readColon rest))
      tableLoop decoder room fuel ((key, value) :: read) rest

/-- An object with any keys. -/
def table (decoder : TextDecoder α) : TextDecoder (KeyMap α) := fun room text =>
  match skipBlanks text with
  | '\x7b' :: rest => entering room ('\x7b' :: rest) fun room => do
    let (members, rest) ← tableLoop decoder room (rest.length + 1) [] rest
    return (.ofList members, rest)
  | _ => wrongType "a map" text

/-! ## Names -/

/-- The choice that a name stands for. -/
def named (choices : List (String × α)) (name : String) (rest : List Char) : TypedAttempt α :=
  match Decoder.named choices name with
  | .ok choice => .ok choice
  | .error mismatch => mismatchAt mismatch rest

/-- One of several names. -/
def choice (choices : List (String × α)) : TextDecoder α := fun room text =>
  match skipBlanks text with
  | [] => lift (stopAt .endOfValue [])
  | '"' :: rest => do
    let (name, rest) ← lift (readString rest)
    return (← named choices name rest, rest)
  | '\x7b' :: rest => entering room ('\x7b' :: rest) fun _ =>
    match skipBlanks rest with
    | [] => lift (stopAt .endOfObject [])
    | '\x7d' :: rest => lift (stopOn .expectedValue ('\x7d' :: rest))
    | '"' :: rest => do
      let (name, rest) ← lift (readString rest)
      let result ← named choices name rest
      match skipBlanks (← lift (readColon rest)) with
      | 'n' :: rest =>
        match skipBlanks (← lift (readWord ['u', 'l', 'l'] rest)) with
        | '\x7d' :: rest => return (result, rest)
        | [] => lift (stopAt .endOfObject [])
        | rest => lift (stopAt .expectedValue rest)
      | rest => wrongType "unit" rest
    | rest => lift (stopOn .keyNotString rest)
  | rest => lift (stopOn .expectedValue rest)

/-! ## Records -/

/-- Where a repeated key is reported: after the blanks that follow it, and after the end of the
object if that is what comes next. -/
def afterRepeated (rest : List Char) : List Char :=
  match skipBlanks rest with
  | '\x7d' :: rest => rest
  | rest => rest

/-- Reads the members of an object into a record; `seen` holds the known keys so far. -/
def membersLoop (slots : List (Slot TextDecoder σ)) (room : Nat) :
    (fuel : Nat) → (first : Bool) → List String → σ → List Char → TypedAttempt (σ × List Char)
  | 0, _, _, _, text => lift (stopAt .endOfObject text)
  | fuel + 1, first, seen, record, text => do
    match ← lift (nextKey first text) with
    | .ended rest =>
      match Slot.missing? slots seen with
      | some field => mismatchAt (.missingField field) rest
      | none => return (record, rest)
    | .found (key, rest) =>
      match slots.find? (·.name = key) with
      | none =>
        let rest ← lift (do skipValue (← readColon rest))
        membersLoop slots room fuel false seen record rest
      | some slot =>
        if seen.contains key then mismatchAt (.duplicateField key) (afterRepeated rest)
        else
          let (set, rest) ← slot.read room (← lift (readColon rest))
          membersLoop slots room fuel false (key :: seen) (set record) rest

/-- Checks that an array ends here. -/
def endOfItems (text : List Char) : Attempt (List Char) :=
  match skipBlanks text with
  | [] => stopAt .endOfList []
  | ']' :: rest => .ok rest
  | ',' :: rest =>
    match skipBlanks rest with
    | ']' :: rest => stopOn .trailingComma (']' :: rest)
    | rest => stopOn .trailingCharacters rest
  | rest => stopOn .trailingCharacters rest

/-- Reads the items of an array into the slots of a record, in the order of the slots. -/
def slotsLoop (refuse : Nat → Mismatch) (room : Nat) :
    List (Slot TextDecoder σ) → (index : Nat) → σ → List Char → TypedAttempt (σ × List Char)
  | [], _, record, text => do return (record, ← lift (endOfItems text))
  | slot :: slots, index, record, text => do
    match ← lift (nextItem (index = 0) text) with
    | .found text =>
      let (set, rest) ← slot.read room text
      slotsLoop refuse room slots (index + 1) (set record) rest
    | .ended rest =>
      match (slot :: slots).findIdx? fun slot => slot.absence ≠ .allowed with
      | some ahead => mismatchAt (refuse (index + ahead)) rest
      | none => return (record, rest)

/-- A record as an object or as an array of its fields. -/
def record (name : String) (slots : List (Slot TextDecoder σ)) (blank : σ) : TextDecoder σ :=
  fun room text =>
    match skipBlanks text with
    | '\x7b' :: rest => entering room ('\x7b' :: rest) fun room =>
      membersLoop slots room (rest.length + 1) true [] blank rest
    | '[' :: rest => entering room ('[' :: rest) fun room =>
      slotsLoop (fun index => .tooShort index name slots.length) room slots 0 blank rest
    | _ => wrongType ("struct " ++ name) text

instance : Format TextDecoder where
  map := map
  string := string
  boolean := boolean
  natural := natural
  json := json
  optional := optional
  list := list
  table := table
  choice := choice
  record := record

/-- How many containers may be open at a time. -/
def room : Nat := 127

/-- The data that a whole text holds. -/
def run (decoder : TextDecoder α) (text : String) : Except TextDefect α :=
  let read : TypedAttempt α := do
    let (value, rest) ← decoder room text.toList
    lift (endOfText rest)
    return value
  read.mapError fun stop => ⟨stop.cause, .ofStop text.toList stop⟩

end TextDecoder
end DocTree
