import DocTree.Text.Visible

/-!
# Quoted text in messages

A text in a message stands between quotes, with escapes for quotes, backslashes and all
characters that would not show.

## Main definitions

- `quoteForMessage`: the quoted form of a text.
-/

namespace DocTree

/-- How a character stands in a quoted text. -/
def quotedCharacter : Char → String
  | '\x00' => "\\0"
  | '\t' => "\\t"
  | '\n' => "\\n"
  | '\r' => "\\r"
  | '"' => "\\\""
  | '\\' => "\\\\"
  | c =>
    if Text.isVisible c then c.toString
    else "\\u\x7b" ++ String.ofList (Nat.toDigits 16 c.toNat) ++ "\x7d"

/-- A text between quotes. -/
def quoteForMessage (text : String) : String :=
  "\"" ++ String.join (text.toList.map quotedCharacter) ++ "\""

end DocTree
