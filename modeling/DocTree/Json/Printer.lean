import DocTree.Json.Basic

/-!
# Writing JSON text

The compact form has no blanks; the indented form puts each item and member on a line of its own,
two blanks deeper than its container. Members are written in the order of the list that holds
them.

## Main definitions

- `Json.quoted`: a string between quotes, with the escapes that it needs.
- `Json.compact`, `Json.indented`: the text of a value.
-/

namespace DocTree.Json

/-- Four hexadecimal digits. -/
def hexFour (n : Nat) : String :=
  let digits := Nat.toDigits 16 n
  String.ofList (List.replicate (4 - digits.length) '0' ++ digits)

/-- How a character stands in a quoted string. Quotes, backslashes and control characters are
escaped, and nothing else. -/
def escaped : Char → String
  | '"' => "\\\""
  | '\\' => "\\\\"
  | '\x08' => "\\b"
  | '\t' => "\\t"
  | '\n' => "\\n"
  | '\x0c' => "\\f"
  | '\r' => "\\r"
  | c => if c.toNat < 0x20 then "\\u" ++ hexFour c.toNat else c.toString

/-- Appends a quoted string. -/
def writeString (out : String) (text : String) : String :=
  (text.toList.foldl (fun out c => out ++ escaped c) (out.push '"')).push '"'

/-- A string between quotes. -/
def quoted (text : String) : String := writeString "" text

/-- Starts a new line at the given depth, in the indented form only. -/
def breakLine (indent : Bool) (depth : Nat) (out : String) : String :=
  if indent then (out.push '\n').pushn ' ' (2 * depth) else out

mutual

/-- Appends a value that stands at the given depth. -/
def write (indent : Bool) (depth : Nat) (out : String) : Json → String
  | .null => out ++ "null"
  | .bool value => out ++ (if value then "true" else "false")
  | .number value => out ++ value.text
  | .string value => writeString out value
  | .array [] => out ++ "[]"
  | .array (item :: items) =>
    let out := write indent (depth + 1) (breakLine indent (depth + 1) (out.push '[')) item
    (breakLine indent depth (writeItems indent (depth + 1) out items)).push ']'
  | .object [] => out ++ "\x7b\x7d"
  | .object ((key, value) :: members) =>
    let out := writeString (breakLine indent (depth + 1) (out.push '\x7b')) key
    let out := write indent (depth + 1) (out ++ (if indent then ": " else ":")) value
    (breakLine indent depth (writeMembers indent (depth + 1) out members)).push '\x7d'

/-- Appends the items after the first, each after a comma. -/
def writeItems (indent : Bool) (depth : Nat) (out : String) : List Json → String
  | [] => out
  | item :: items =>
    writeItems indent depth
      (write indent depth (breakLine indent depth (out.push ',')) item) items

/-- Appends the members after the first, each after a comma. -/
def writeMembers (indent : Bool) (depth : Nat) (out : String) : List (String × Json) → String
  | [] => out
  | (key, value) :: members =>
    let out := writeString (breakLine indent depth (out.push ',')) key
    let out := write indent depth (out ++ (if indent then ": " else ":")) value
    writeMembers indent depth out members

end

/-- The text of a value without blanks. -/
def compact (value : Json) : String := write false 0 "" value

/-- The text of a value on lines of their own. -/
def indented (value : Json) : String := write true 0 "" value

end DocTree.Json
