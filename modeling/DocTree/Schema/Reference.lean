import DocTree.Schema.Basic

/-!
# Reference types

The types that a registry holds unless it is made empty.

## Main definitions

- `Schema.reference`: their schemas.
-/

namespace DocTree.Schema

/-- An optional field of a kind. -/
private def optionalField (kind : FieldKind) : FieldSpec := { kind }

/-- A required field of a kind. -/
private def requiredField (kind : FieldKind) : FieldSpec := { kind, required := true }

/-- An optional flag with a default. -/
private def flagField (defaultValue : Bool) : FieldSpec :=
  { kind := .boolean, defaultValue := some (.bool defaultValue) }

/-- Adds the code of an executable type, and where its results are kept. -/
private def executable (schema : Schema) : Schema :=
  schema
    |>.withField "code" (requiredField .string)
    |>.withField "language" (optionalField .string)
    |>.withField "outputs" (optionalField .nodeList)
    |>.withField "errors" (optionalField .nodeList)

/-- The schemas of the reference types. -/
def reference : List Schema :=
  [ (container "Heading" .block .inline).withField "level" (requiredField .number),
    container "Paragraph" .block .inline,
    (leaf "Code" .block).withField "language" (optionalField .string),
    leaf "Text" .inline,
    container "Emphasis" .inline .inline,
    container "Strong" .inline .inline,
    (leaf "InlineCode" .inline).withField "language" (optionalField .string),
    executable (empty "CodeCell" .block)
      |>.withField "isEchoed" (flagField true)
      |>.withField "isHidden" (flagField false),
    executable (empty "CodeExpr" .inline),
    empty "ThematicBreak" .block ]

end DocTree.Schema
