import DocTree.Json.Basic
import DocTree.Json.Fault

/-!
# Reading JSON text

A reader takes the characters that are left and returns a value with what it leaves, or stops at
a fault. Strings are read by an automaton over their characters; containers are kept on a list
of open frames, so that depth costs no recursion.

## Main definitions

- `readString`, `readNumber`: the readers of quoted strings and of numbers.
- `readValue`: the reader of one value.
- `Json.parse`: the value of a whole text.
-/

namespace DocTree

/-- A result, or a fault at its place. A reader's result comes with the text that is left. -/
abbrev Attempt := Except (At Fault)

/-- Stops before what is left. -/
def stopAt {α : Type} (fault : Fault) (rest : List Char) : Attempt α :=
  .error ⟨fault, rest, 0⟩

/-- Stops at the next byte, which has been looked at. -/
def stopOn {α : Type} (fault : Fault) (rest : List Char) : Attempt α :=
  .error ⟨fault, rest, 1⟩

/-- The blanks of JSON. -/
def isBlank (c : Char) : Bool := c = ' ' || c = '\t' || c = '\n' || c = '\r'

/-- What follows the blanks. -/
def skipBlanks (text : List Char) : List Char := text.dropWhile isBlank

/-- Reads the rest of a word such as `null`. -/
def readWord : List Char → List Char → Attempt (List Char)
  | [], text => .ok text
  | _ :: _, [] => stopAt .endOfValue []
  | expected :: word, c :: rest =>
    if c = expected then readWord word rest else stopOn .expectedWord (c :: rest)

/-! ## Strings -/

/-- The character of a one-letter escape. -/
def escapeLetter? : Char → Option Char
  | '"' => some '"'
  | '\\' => some '\\'
  | '/' => some '/'
  | 'b' => some '\x08'
  | 'f' => some '\x0c'
  | 'n' => some '\n'
  | 'r' => some '\r'
  | 't' => some '\t'
  | _ => none

/-- The value of a hexadecimal digit. -/
def hexDigit? (c : Char) : Option Nat :=
  if '0' ≤ c ∧ c ≤ '9' then some (c.toNat - 48)
  else if 'a' ≤ c ∧ c ≤ 'f' then some (c.toNat - 87)
  else if 'A' ≤ c ∧ c ≤ 'F' then some (c.toNat - 55)
  else none

/-- Whether a 16-bit unit opens a surrogate pair. -/
def isLeading (unit : Nat) : Bool := 0xD800 ≤ unit && unit < 0xDC00

/-- Whether a 16-bit unit closes a surrogate pair. -/
def isTrailing (unit : Nat) : Bool := 0xDC00 ≤ unit && unit < 0xE000

/-- The character of a surrogate pair. -/
def ofPair (leading trailing : Nat) : Char :=
  Char.ofNat (0x10000 + (leading - 0xD800) * 0x400 + (trailing - 0xDC00))

/-- How far the reader of a string is within an escape. -/
inductive Escape where
  /-- Outside of escapes. -/
  | outside
  /-- After a backslash. -/
  | started
  /-- Among the four bytes after `\u`: how many were read, and their value if all are digits. The
  unit before it is the leading surrogate that this one has to complete. -/
  | digits (leading : Option Nat) (count : Nat) (value : Option Nat)
  /-- After a leading surrogate. -/
  | paired (leading : Nat)
  /-- After a leading surrogate and a backslash. -/
  | pairedStarted (leading : Nat)

/-- Reads a string from after its opening quote; `read` holds its characters so far, last first. -/
def readCharacters : Escape → List Char → List Char → Attempt (String × List Char)
  | _, _, [] => stopAt .endOfString []
  | .outside, read, c :: rest =>
    if c = '"' then .ok (String.ofList read.reverse, rest)
    else if c = '\\' then readCharacters .started read rest
    else if c.toNat < 0x20 then stopOn .controlCharacter (c :: rest)
    else readCharacters .outside (c :: read) rest
  | .started, read, c :: rest =>
    if c = 'u' then readCharacters (.digits none 0 (some 0)) read rest
    else match escapeLetter? c with
      | some letter => readCharacters .outside (letter :: read) rest
      | none => stopOn .invalidEscape (c :: rest)
  | .digits leading count value, read, c :: rest =>
    let next := do return 16 * (← value) + (← hexDigit? c)
    if count + c.utf8Size < 4 then
      readCharacters (.digits leading (count + c.utf8Size) next) read rest
    else match next, leading with
      | none, _ => .error ⟨.invalidEscape, c :: rest, 4 - count⟩
      | some unit, none =>
        if isTrailing unit then stopAt .loneSurrogate rest
        else if isLeading unit then readCharacters (.paired unit) read rest
        else readCharacters .outside (Char.ofNat unit :: read) rest
      | some unit, some leading =>
        if isTrailing unit then readCharacters .outside (ofPair leading unit :: read) rest
        else stopAt .loneSurrogate rest
  | .paired leading, read, c :: rest =>
    if c = '\\' then readCharacters (.pairedStarted leading) read rest
    else stopOn .unfinishedSurrogate (c :: rest)
  | .pairedStarted leading, read, c :: rest =>
    if c = 'u' then readCharacters (.digits (some leading) 0 (some 0)) read rest
    else stopOn .unfinishedSurrogate (c :: rest)

/-- Reads a string from after its opening quote. -/
def readString (text : List Char) : Attempt (String × List Char) := readCharacters .outside [] text

/-! ## Numbers -/

/-- Adds digits to a number as long as it has 64 bits: that number, and the digits left over. -/
def addDigits (word : Nat) : List Char → Nat × List Char
  | [] => (word, [])
  | c :: digits =>
    let next := 10 * word + (c.toNat - 48)
    if next < UInt64.size then addDigits next digits else (word, c :: digits)

/-- Exponents beyond this bound, the largest signed word, are not evaluated. -/
def exponentBound : Nat := 2147483647

/-- Adds digits to an exponent. It is nothing from the digit that takes it beyond the bound, and
reading stops after that digit. -/
def readExponentDigits (exponent : Nat) : List Char → Option Nat × List Char
  | [] => (some exponent, [])
  | c :: rest =>
    if c.isDigit then
      let next := 10 * exponent + (c.toNat - 48)
      if exponentBound < next then (none, rest) else readExponentDigits next rest
    else (some exponent, c :: rest)

/-- The number of a sign and a decimal that ends before `rest`. -/
def decimalEnding (negative : Bool) (decimal : Decimal) (rest : List Char) :
    Attempt (Number × List Char) :=
  match Number.ofDecimal negative decimal with
  | some number => .ok (number, rest)
  | none => stopAt .numberOutOfRange rest

/-- Reads the exponent of a decimal, from after its mark. -/
def readExponent (negative : Bool) (decimal : Decimal) (text : List Char) :
    Attempt (Number × List Char) :=
  let (below, unsigned) : Bool × List Char :=
    match text with
    | '+' :: rest => (false, rest)
    | '-' :: rest => (true, rest)
    | _ => (false, text)
  match unsigned with
  | [] => stopAt .endOfValue []
  | c :: _ =>
    if c.isDigit then
      match readExponentDigits 0 unsigned with
      | (some exponent, rest) =>
        let scale := if below then decimal.scale - exponent else decimal.scale + exponent
        decimalEnding negative ⟨decimal.digits, scale⟩ rest
      | (none, rest) =>
        if decimal.digits ≠ 0 ∧ below = false then stopAt .numberOutOfRange rest
        else .ok (.double (.zero negative), rest.dropWhile Char.isDigit)
    else stopOn .invalidNumber unsigned

/-- Whether a character marks an exponent. -/
def isExponentMark (c : Char) : Bool := c = 'e' || c = 'E'

/-- Reads what follows the digits before the point. Digits that 64 bits do not hold are dropped;
those before the point count for the scale. -/
def readFraction (negative : Bool) (whole : List Char) (text : List Char) :
    Attempt (Number × List Char) :=
  let (word, dropped) := addDigits 0 whole
  match text with
  | [] => integerEnding word dropped []
  | '.' :: text =>
    let fraction := text.takeWhile Char.isDigit
    let (word, droppedAfter) := addDigits word fraction
    let decimal : Decimal := ⟨word, dropped.length + droppedAfter.length - fraction.length⟩
    match fraction, text.dropWhile Char.isDigit with
    | [], [] => stopAt .endOfValue []
    | [], rest => stopOn .invalidNumber rest
    | _, [] => decimalEnding negative decimal []
    | _, c :: rest =>
      if isExponentMark c then readExponent negative decimal rest
      else decimalEnding negative decimal (c :: rest)
  | c :: rest =>
    if isExponentMark c then readExponent negative ⟨word, dropped.length⟩ rest
    else integerEnding word dropped (c :: rest)
where
  /-- The integer that ends before `rest`. With digits dropped it is a double. -/
  integerEnding (word : Nat) (dropped rest : List Char) : Attempt (Number × List Char) :=
    if dropped.isEmpty then .ok (.ofWord negative word, rest)
    else decimalEnding negative ⟨word, dropped.length⟩ rest

/-- Reads a number from after its sign. A zero may not be followed by a digit. -/
def readNumber (negative : Bool) (text : List Char) : Attempt (Number × List Char) :=
  match text with
  | [] => stopAt .endOfValue []
  | '0' :: rest =>
    if rest.head?.any Char.isDigit then stopOn .invalidNumber rest
    else readFraction negative ['0'] rest
  | c :: _ =>
    if c.isDigit then
      readFraction negative (text.takeWhile Char.isDigit) (text.dropWhile Char.isDigit)
    else stopOn .invalidNumber text

/-! ## Values -/

/-- A container that is not closed yet: its items or members so far, last first, and in an object
the key whose value is due. -/
inductive Frame where
  | array (items : List Json)
  | object (members : List (String × Json)) (key : String)

/-- What reading came to: a whole value, or a place where a value of the innermost frame is due. -/
inductive Progress where
  | finished (value : Json) (rest : List Char)
  | due (frames : List Frame) (rest : List Char)

/-- Reads a key and its colon, from after the opening quote. -/
def readKey (text : List Char) : Attempt (String × List Char) := do
  let (key, rest) ← readString text
  match skipBlanks rest with
  | ':' :: rest => .ok (key, rest)
  | [] => stopAt .endOfObject []
  | rest => stopOn .expectedColon rest

/-- Puts a value into the innermost frame, and closes the frames that end after it. -/
def complete : Json → List Frame → List Char → Attempt Progress
  | value, [], text => .ok (.finished value text)
  | value, .array items :: frames, text =>
    match skipBlanks text with
    | ']' :: rest => complete (.array (value :: items).reverse) frames rest
    | ',' :: rest =>
      match skipBlanks rest with
      | [] => stopAt .endOfValue []
      | ']' :: rest => stopOn .trailingComma (']' :: rest)
      | rest => .ok (.due (.array (value :: items) :: frames) rest)
    | [] => stopAt .endOfList []
    | rest => stopOn .expectedListEnd rest
  | value, .object members key :: frames, text =>
    match skipBlanks text with
    | '\x7d' :: rest =>
      complete (.ofMap (.ofList ((key, value) :: members).reverse)) frames rest
    | ',' :: rest =>
      match skipBlanks rest with
      | [] => stopAt .endOfValue []
      | '"' :: rest => do
        let (next, rest) ← readKey rest
        .ok (.due (.object ((key, value) :: members) next :: frames) rest)
      | '\x7d' :: rest => stopOn .trailingComma ('\x7d' :: rest)
      | rest => stopOn .keyNotString rest
    | [] => stopAt .endOfObject []
    | rest => stopOn .expectedObjectEnd rest

/-- Reads a scalar or the start of a container where a value is due. `room` bounds how many
containers may be open. -/
def readNext (room : Option Nat) (frames : List Frame) (text : List Char) :
    Attempt Progress :=
  let full := room.any (· ≤ frames.length)
  match skipBlanks text with
  | [] => stopAt .endOfValue []
  | 'n' :: rest => do complete .null frames (← readWord ['u', 'l', 'l'] rest)
  | 't' :: rest => do complete (.bool true) frames (← readWord ['r', 'u', 'e'] rest)
  | 'f' :: rest => do complete (.bool false) frames (← readWord ['a', 'l', 's', 'e'] rest)
  | '"' :: rest => do
    let (value, rest) ← readString rest
    complete (.string value) frames rest
  | '-' :: rest => do
    let (value, rest) ← readNumber true rest
    complete (.number value) frames rest
  | '[' :: rest =>
    if full then stopOn .nestedTooDeep ('[' :: rest)
    else match skipBlanks rest with
      | [] => stopAt .endOfList []
      | ']' :: rest => complete (.array []) frames rest
      | rest => .ok (.due (.array [] :: frames) rest)
  | '\x7b' :: rest =>
    if full then stopOn .nestedTooDeep ('\x7b' :: rest)
    else match skipBlanks rest with
      | [] => stopAt .endOfObject []
      | '\x7d' :: rest => complete (.object []) frames rest
      | '"' :: rest => do
        let (key, rest) ← readKey rest
        .ok (.due (.object [] key :: frames) rest)
      | rest => stopOn .keyNotString rest
  | c :: rest =>
    if c.isDigit then do
      let (value, rest) ← readNumber false (c :: rest)
      complete (.number value) frames rest
    else stopOn .expectedValue (c :: rest)

/-- Reads until the outermost value is whole. Each step takes a character, so `fuel` beyond the
length of the text is not used up. -/
def readFrames (room : Option Nat) :
    (fuel : Nat) → List Frame → List Char → Attempt (Json × List Char)
  | 0, _, text => stopAt .endOfValue text
  | fuel + 1, frames, text => do
    match ← readNext room frames text with
    | .finished value rest => .ok (value, rest)
    | .due frames rest => readFrames room fuel frames rest

/-- Reads one value, with at most `room` containers open at a time. -/
def readValue (room : Option Nat) (text : List Char) : Attempt (Json × List Char) :=
  readFrames room (text.length + 1) [] text

/-- Checks that only blanks are left. -/
def endOfText (text : List Char) : Attempt Unit :=
  match skipBlanks text with
  | [] => .ok ()
  | rest => stopOn .trailingCharacters rest

/-- A fault with its position. -/
structure TextFault where
  fault : Fault
  position : Position
deriving DecidableEq, Repr

/-- The words for a fault and its position. -/
def TextFault.message (e : TextFault) : String := e.fault.message ++ e.position.suffix

/-- The value that a text holds, to any depth. -/
def Json.parse (text : String) : Except TextFault Json :=
  let read : Attempt Json := do
    let (value, rest) ← readValue none text.toList
    endOfText rest
    return value
  read.mapError fun stop => ⟨stop.cause, .ofStop text.toList stop⟩

end DocTree
