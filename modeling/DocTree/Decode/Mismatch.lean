import DocTree.Json.Basic
import DocTree.Text.Quoted

/-!
# Mismatches of typed data

## Main definitions

- `Mismatch`: how a JSON value can fail to be data of a type, and its message.
-/

namespace DocTree

/-- How a value fails to be data of a type. -/
inductive Mismatch where
  | wrongType (found : Json) (expected : String)
  | outOfRange (found : Int) (expected : String)
  | missingField (name : String)
  | duplicateField (name : String)
  | unknownVariant (name : String) (known : List String)
  | tooShort (length : Nat) (record : String) (arity : Nat)
  | tooLong (length : Nat)
  | severalKeys
  | noPathSegment
deriving Repr

namespace Mismatch

/-- What was found, by its kind and, for a scalar, its value. -/
def describe : Json → String
  | .null => "null"
  | .bool value => if value then "boolean `true`" else "boolean `false`"
  | .number (.int value) => "integer `" ++ (Number.int value).text ++ "`"
  | .number (.double value) => "floating point `" ++ (Number.double value).text ++ "`"
  | .string value => "string " ++ quoteForMessage value
  | .array _ => "sequence"
  | .object _ => "map"

/-- The words for the choice between names. -/
def oneOf : List String → String
  | [] => "there are no variants"
  | [a] => "expected `" ++ a ++ "`"
  | [a, b] => "expected `" ++ a ++ "` or `" ++ b ++ "`"
  | names => "expected one of " ++ ", ".intercalate (names.map fun name => "`" ++ name ++ "`")

/-- The words for a mismatch. -/
def message : Mismatch → String
  | .wrongType found expected => "invalid type: " ++ describe found ++ ", expected " ++ expected
  | .outOfRange found expected =>
    "invalid value: integer `" ++ (Number.int found).text ++ "`, expected " ++ expected
  | .missingField name => "missing field `" ++ name ++ "`"
  | .duplicateField name => "duplicate field `" ++ name ++ "`"
  | .unknownVariant name known => "unknown variant `" ++ name ++ "`, " ++ oneOf known
  | .tooShort length record arity =>
    "invalid length " ++ length.repr ++ ", expected struct " ++ record ++ " with " ++ arity.repr ++
      (if arity = 1 then " element" else " elements")
  | .tooLong length => "invalid length " ++ length.repr ++ ", expected fewer elements in array"
  | .severalKeys => "invalid value: map, expected map with a single key"
  | .noPathSegment => "data did not match any variant of untagged enum PathSegment"

end Mismatch
end DocTree
