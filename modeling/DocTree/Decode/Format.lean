import DocTree.Decode.Mismatch

/-!
# Formats that typed data is read from

The shape of typed data is described once, over any format. A format says how to read scalars,
lists, maps, one of several names, and records; the description of a record names its slots.

## Main definitions

- `Slot`: a field of a record, with what its absence means.
- `Format`: the ways to read that a format offers.
-/

namespace DocTree

/-- The naturals of a fixed width, by the name that messages give it. -/
structure Width where
  name : String
  bound : Nat

/-- Words of 32 bits. -/
def Width.word : Width := ⟨"u32", UInt32.size⟩

/-- Sizes and indices. -/
def Width.size : Width := ⟨"usize", UInt64.size⟩

/-- What the absence of a field means. -/
inductive Absence where
  /-- The field must be there. -/
  | refused
  /-- An object may leave the field out; a list of fields may not. -/
  | refusedInList
  /-- The field may be left out. -/
  | allowed
deriving DecidableEq

/-- A field of a record that is read into `σ`: its name, how its value enters, and what its
absence means. -/
structure Slot (m : Type → Type) (σ : Type) where
  name : String
  read : m (σ → σ)
  absence : Absence

/-- The name of the first field that is required and not among those seen. -/
def Slot.missing? {m : Type → Type} {σ : Type} (slots : List (Slot m σ)) (seen : List String) :
    Option String :=
  (slots.find? fun slot => slot.absence = .refused && !seen.contains slot.name).map (·.name)

/-- A format that typed data is read from: `m α` reads an `α`. -/
class Format (m : Type → Type) where
  /-- Changes what was read. -/
  map : {α β : Type} → (α → β) → m α → m β
  /-- A string. -/
  string : m String
  /-- A boolean. -/
  boolean : m Bool
  /-- A natural number of a width. -/
  natural : Width → m Nat
  /-- Any value. -/
  json : m Json
  /-- A value or null. -/
  optional : {α : Type} → m α → m (Option α)
  /-- An array. -/
  list : {α : Type} → m α → m (List α)
  /-- An object with any keys. -/
  table : {α : Type} → m α → m (KeyMap α)
  /-- One of several names: as a string, or as the only key of an object whose value is null. -/
  choice : {α : Type} → List (String × α) → m α
  /-- A record of a name: as an object of its fields, or as an array of them in their order. -/
  record : {σ : Type} → String → List (Slot m σ) → σ → m σ

namespace Format

variable {m : Type → Type} [Format m]

/-- A word of 32 bits. -/
def word : m UInt32 := map UInt32.ofNat (natural .word)

/-- A slot whose value enters by `set`. -/
def slot {α σ : Type} (name : String) (absence : Absence) (value : m α) (set : α → σ → σ) :
    Slot m σ :=
  ⟨name, map set value, absence⟩

end Format
end DocTree
