import DocTree.Decode.Format

/-!
# Typed data from JSON values

The members of an object are visited in the order of their keys, so the first mismatch in that
order is the one reported.

## Main definitions

- `Decoder`: reads typed data from a JSON value. It is a `Format`.
-/

namespace DocTree

/-- Reads an `α` from a JSON value. -/
def Decoder (α : Type) := Json → Except Mismatch α

namespace Decoder

variable {α β σ : Type}

/-- Changes what was read. -/
def map (f : α → β) (decoder : Decoder α) : Decoder β := fun value => (decoder value).map f

/-- A string. -/
def string : Decoder String
  | .string value => .ok value
  | value => .error (.wrongType value "a string")

/-- A boolean. -/
def boolean : Decoder Bool
  | .bool value => .ok value
  | value => .error (.wrongType value "a boolean")

/-- The natural number of a width that a value is. -/
def naturalOf (width : Width) : Json → Except Mismatch Nat
  | .number (.int value) =>
    if 0 ≤ value ∧ value < width.bound then .ok value.toNat
    else .error (.outOfRange value width.name)
  | value => .error (.wrongType value width.name)

/-- A value or null. -/
def optional (decoder : Decoder α) : Decoder (Option α)
  | .null => .ok none
  | value => some <$> decoder value

/-- An array. -/
def list (decoder : Decoder α) : Decoder (List α)
  | .array items => items.mapM decoder
  | value => .error (.wrongType value "a sequence")

/-- An object with any keys. -/
def table (decoder : Decoder α) : Decoder (KeyMap α)
  | .object members =>
    KeyMap.ofList <$> members.mapM fun (key, value) => do return (key, ← decoder value)
  | value => .error (.wrongType value "a map")

/-- The choice that a name stands for. -/
def named (choices : List (String × α)) (name : String) : Except Mismatch α :=
  match choices.lookup name with
  | some choice => .ok choice
  | none => .error (.unknownVariant name (choices.map (·.1)))

/-- One of several names. -/
def choice (choices : List (String × α)) : Decoder α
  | .string name => named choices name
  | .object [(name, payload)] => do
    let choice ← named choices name
    match payload with
    | .null => return choice
    | payload => .error (.wrongType payload "unit")
  | .object _ => .error .severalKeys
  | value => .error (.wrongType value "string or map")

/-- Reads the members of an object into a record, in their order. -/
def members (slots : List (Slot Decoder σ)) : List (String × Json) → σ → Except Mismatch σ
  | [], record => .ok record
  | (key, value) :: rest, record =>
    match slots.find? (·.name = key) with
    | none => members slots rest record
    | some slot => do members slots rest ((← slot.read value) record)

/-- Reads the items of an array into the slots of a record, in the order of the slots. `refuse`
is the mismatch when a required item is absent, and `index` the place of the next one. -/
def items (refuse : Nat → Mismatch) : List (Slot Decoder σ) → Nat → List Json → σ →
    Except Mismatch (σ × List Json)
  | [], _, rest, record => .ok (record, rest)
  | slot :: slots, index, value :: rest, record => do
    items refuse slots (index + 1) rest ((← slot.read value) record)
  | slot :: slots, index, [], record =>
    if slot.absence = .allowed then items refuse slots (index + 1) [] record
    else .error (refuse index)

/-- A record as an object or as an array of its fields. -/
def record (name : String) (slots : List (Slot Decoder σ)) (blank : σ) : Decoder σ
  | .object entries => do
    let result ← members slots entries blank
    match Slot.missing? slots (entries.map (·.1)) with
    | some field => .error (.missingField field)
    | none => return result
  | .array values => do
    let (result, rest) ← items (fun index => .tooShort index name slots.length) slots 0 values blank
    if rest.isEmpty then return result else .error (.tooLong values.length)
  | value => .error (.wrongType value ("struct " ++ name))

instance : Format Decoder where
  map := map
  string := string
  boolean := boolean
  natural := naturalOf
  json := .ok
  optional := optional
  list := list
  table := table
  choice := choice
  record := record

end Decoder
end DocTree
