/-!
# Faults in JSON text

## Main definitions

- `Fault`: what can be wrong with a text, and its message.
- `At`: a cause with the place where reading stopped, as the text that was left.
- `Position`: a line and a column, counted in bytes.
-/

namespace DocTree

/-- What is wrong with a JSON text. -/
inductive Fault where
  | endOfValue
  | endOfList
  | endOfObject
  | endOfString
  | expectedValue
  | expectedWord
  | expectedColon
  | expectedListEnd
  | expectedObjectEnd
  | keyNotString
  | trailingComma
  | trailingCharacters
  | invalidNumber
  | numberOutOfRange
  | invalidEscape
  | loneSurrogate
  | unfinishedSurrogate
  | controlCharacter
  | nestedTooDeep
deriving DecidableEq, Repr

namespace Fault

/-- The words for a fault. -/
def message : Fault → String
  | .endOfValue => "EOF while parsing a value"
  | .endOfList => "EOF while parsing a list"
  | .endOfObject => "EOF while parsing an object"
  | .endOfString => "EOF while parsing a string"
  | .expectedValue => "expected value"
  | .expectedWord => "expected ident"
  | .expectedColon => "expected `:`"
  | .expectedListEnd => "expected `,` or `]`"
  | .expectedObjectEnd => "expected `,` or `\x7d`"
  | .keyNotString => "key must be a string"
  | .trailingComma => "trailing comma"
  | .trailingCharacters => "trailing characters"
  | .invalidNumber => "invalid number"
  | .numberOutOfRange => "number out of range"
  | .invalidEscape => "invalid escape"
  | .loneSurrogate => "lone leading surrogate in hex escape"
  | .unfinishedSurrogate => "unexpected end of hex escape"
  | .controlCharacter => "control character (\\u0000-\\u001F) found while parsing a string"
  | .nestedTooDeep => "recursion limit exceeded"

end Fault

/-- A cause, the text that was left, and how many bytes of that had been looked at. -/
structure At (ε : Type) where
  cause : ε
  rest : List Char
  ahead : Nat
deriving Repr

/-- A place in a text: lines from 1, and the bytes of its line before it. -/
structure Position where
  line : Nat
  column : Nat
deriving DecidableEq, Repr

namespace Position

/-- The number of bytes of a text. -/
def bytes (text : List Char) : Nat := text.foldl (fun n c => n + c.utf8Size) 0

/-- The place after so many bytes of a text, or after the whole text when it is shorter. -/
def after (position : Position) : List Char → Nat → Position
  | [], _ => position
  | c :: rest, count =>
    if count < c.utf8Size then { position with column := position.column + count }
    else if c = '\n' then after ⟨position.line + 1, 0⟩ rest (count - c.utf8Size)
    else after { position with column := position.column + c.utf8Size } rest (count - c.utf8Size)

/-- The place where reading a text stopped. -/
def ofStop {ε : Type} (text : List Char) (stop : At ε) : Position :=
  after ⟨1, 0⟩ text (bytes text - bytes stop.rest + stop.ahead)

/-- The words that follow a message. -/
def suffix (position : Position) : String :=
  " at line " ++ position.line.repr ++ " column " ++ position.column.repr

end Position
end DocTree
