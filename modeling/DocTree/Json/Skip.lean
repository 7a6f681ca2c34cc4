import DocTree.Json.Reader

/-!
# Passing over JSON values

A value that nobody asked for is passed over without being built: its brackets, commas and
colons must fit, but escapes need not name characters and numbers need not be in range.

## Main definitions

- `skipString`, `skipNumber`, `skipValue`: what is left after a string, a number, a value.
-/

namespace DocTree

/-- How far passing over a string is within an escape. -/
inductive SkipEscape where
  | outside
  | started
  | digits (count : Nat) (valid : Bool)

/-- Passes over the characters of a string. -/
def skipCharacters : SkipEscape → List Char → Attempt (List Char)
  | _, [] => stopAt .endOfString []
  | .outside, c :: rest =>
    if c = '"' then .ok rest
    else if c = '\\' then skipCharacters .started rest
    else if c.toNat < 0x20 then stopAt .controlCharacter (c :: rest)
    else skipCharacters .outside rest
  | .started, c :: rest =>
    if c = 'u' then skipCharacters (.digits 0 true) rest
    else if (escapeLetter? c).isSome then skipCharacters .outside rest
    else stopOn .invalidEscape (c :: rest)
  | .digits count valid, c :: rest =>
    let valid := valid && (hexDigit? c).isSome
    if count + c.utf8Size < 4 then skipCharacters (.digits (count + c.utf8Size) valid) rest
    else if valid then skipCharacters .outside rest
    else .error ⟨.invalidEscape, c :: rest, 4 - count⟩

/-- Passes over a string, from after its opening quote. -/
def skipString (text : List Char) : Attempt (List Char) := skipCharacters .outside text

/-- Passes over an exponent, from after its mark. -/
def skipExponent (text : List Char) : Attempt (List Char) :=
  let unsigned :=
    match text with
    | '+' :: rest => rest
    | '-' :: rest => rest
    | _ => text
  if unsigned.head?.any Char.isDigit then .ok (unsigned.dropWhile Char.isDigit)
  else stopOn .invalidNumber unsigned

/-- Passes over what follows the digits before the point. -/
def skipFraction : List Char → Attempt (List Char)
  | [] => .ok []
  | c :: text =>
    if c = '.' then
      if text.head?.any Char.isDigit then
        match text.dropWhile Char.isDigit with
        | [] => .ok []
        | c :: rest => if isExponentMark c then skipExponent rest else .ok (c :: rest)
      else stopOn .invalidNumber text
    else if isExponentMark c then skipExponent text
    else .ok (c :: text)

/-- Passes over a number, from after its sign. -/
def skipNumber (text : List Char) : Attempt (List Char) :=
  match text with
  | '0' :: rest =>
    if rest.head?.any Char.isDigit then stopOn .invalidNumber rest else skipFraction rest
  | _ =>
    if text.head?.any Char.isDigit then skipFraction (text.dropWhile Char.isDigit)
    else stopOn .invalidNumber text

/-- The containers that are open while a value is passed over. -/
inductive Bracket where
  | square
  | curly
deriving DecidableEq

/-- Passes over a key and its colon. -/
def skipKey (text : List Char) : Attempt (List Char) :=
  match skipBlanks text with
  | '"' :: rest => do
    match skipBlanks (← skipString rest) with
    | ':' :: rest => .ok rest
    | [] => stopAt .endOfObject []
    | rest => stopOn .expectedColon rest
  | [] => stopAt .endOfObject []
  | rest => stopOn .keyNotString rest

/-- Closes the containers that end here. What is left is nothing where the outermost value ends;
else it is where a value of the innermost container is due. -/
def skipClosings : List Bracket → List Char → Attempt (List Bracket × List Char)
  | [], text => .ok ([], text)
  | .square :: levels, text =>
    match skipBlanks text with
    | ',' :: rest => .ok (.square :: levels, rest)
    | ']' :: rest => skipClosings levels rest
    | [] => stopAt .endOfList []
    | rest => stopOn .expectedListEnd rest
  | .curly :: levels, text =>
    match skipBlanks text with
    | ',' :: rest => do .ok (.curly :: levels, ← skipKey rest)
    | '\x7d' :: rest => skipClosings levels rest
    | [] => stopAt .endOfObject []
    | rest => stopOn .expectedObjectEnd rest

/-- Passes over a scalar, or enters a container. -/
def skipNext (levels : List Bracket) (text : List Char) : Attempt (List Bracket × List Char) :=
  match skipBlanks text with
  | [] => stopAt .endOfValue []
  | 'n' :: rest => do skipClosings levels (← readWord ['u', 'l', 'l'] rest)
  | 't' :: rest => do skipClosings levels (← readWord ['r', 'u', 'e'] rest)
  | 'f' :: rest => do skipClosings levels (← readWord ['a', 'l', 's', 'e'] rest)
  | '"' :: rest => do skipClosings levels (← skipString rest)
  | '-' :: rest => do skipClosings levels (← skipNumber rest)
  | '[' :: rest =>
    match skipBlanks rest with
    | [] => stopAt .endOfList []
    | ']' :: rest => skipClosings levels rest
    | rest => .ok (.square :: levels, rest)
  | '\x7b' :: rest =>
    match skipBlanks rest with
    | [] => stopAt .endOfObject []
    | '\x7d' :: rest => skipClosings levels rest
    | rest => do .ok (.curly :: levels, ← skipKey rest)
  | c :: rest =>
    if c.isDigit then do skipClosings levels (← skipNumber (c :: rest))
    else stopOn .expectedValue (c :: rest)

/-- Passes over values until no container is open. Each step takes a character. -/
def skipLoop : (fuel : Nat) → List Bracket → List Char → Attempt (List Char)
  | 0, _, text => .ok text
  | fuel + 1, levels, text => do
    match ← skipNext levels text with
    | ([], rest) => .ok rest
    | (levels, rest) => skipLoop fuel levels rest

/-- Passes over one value. -/
def skipValue (text : List Char) : Attempt (List Char) := skipLoop (text.length + 1) [] text

end DocTree
