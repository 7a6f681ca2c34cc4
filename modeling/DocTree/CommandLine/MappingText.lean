import DocTree.Migration.Mapping
import DocTree.Text.Whitespace

/-!
# Mappings on the command line

A mapping is written as `key=field` pairs between commas. White space around pairs, keys and
fields does not count, and neither do empty pairs. A pair is cut at its first `=`, and a later
pair of the same key prevails.

## Main definitions

- `MappingTextError`: why a text is no mapping, and its words.
- `Mapping.parse`: the mapping of a text.
-/

namespace DocTree

/-- Why a text is no mapping. -/
inductive MappingTextError where
  | noMark (pair : String)
  | emptyName (pair : String)
  | noPairs
deriving DecidableEq, Repr

/-- The words for a refusal. -/
def MappingTextError.message : MappingTextError → String
  | .noMark pair => "expected dataKey=field, got '" ++ pair ++ "'"
  | .emptyName pair => "empty name in '" ++ pair ++ "'"
  | .noPairs => "mapping is empty"

namespace Mapping

/-- The pieces of a text: what stands between commas, trimmed, without the empty ones. -/
def pieces (text : List Char) : List (List Char) :=
  ((Text.splitAt ',' text).map Text.trim).filter (!·.isEmpty)

/-- The key and the field of a piece. -/
def parsePair (piece : List Char) : Except MappingTextError (String × String) :=
  match piece.dropWhile (· ≠ '=') with
  | [] => .error (.noMark (String.ofList piece))
  | _ :: rest =>
    let key := Text.trim (piece.takeWhile (· ≠ '='))
    let field := Text.trim rest
    if key.isEmpty || field.isEmpty then .error (.emptyName (String.ofList piece))
    else .ok (String.ofList key, String.ofList field)

/-- The mapping of a text. -/
def parse (text : String) : Except MappingTextError Mapping := do
  let pairs ← (pieces text.toList).mapM parsePair
  if pairs.isEmpty then .error .noPairs else return .ofPairs pairs

end Mapping
end DocTree
