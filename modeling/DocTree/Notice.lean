import DocTree.Node

/-!
# Notices

A notice tells of something that was tolerated or left out. It never changes a result.

## Main definitions

- `Notice`: what is told, and its words.
- `Noted`: a result with the notices on the way to it.
-/

namespace DocTree

/-- Something that was tolerated or left out. -/
inductive Notice where
  | baseFieldIgnored (field typeName : String)
  | legacyKeyRead (typeName field dataKey : String)
  | promotionAborted (reason : String)
  | demotionAborted (reason : String)
  | migrationIgnored (typeName : String) (version : UInt32)
  | firstVersionIgnored (typeName : String)
deriving DecidableEq, Repr

/-- The words for a notice. -/
def Notice.message : Notice → String
  | .baseFieldIgnored field typeName =>
    "Ignoring base field '" ++ field ++ "' set as a field on '" ++ typeName ++ "'"
  | .legacyKeyRead typeName field dataKey =>
    "'" ++ typeName ++ "." ++ field ++ "' read from deprecated data key '" ++ dataKey ++ "'"
  | .promotionAborted reason => "Promoted aborted: " ++ reason
  | .demotionAborted reason => "Demoted aborted: " ++ reason
  | .migrationIgnored typeName version =>
    "Ignoring migration of '" ++ typeName ++ "' from v" ++ version.toNat.repr ++
      ": no later version exists"
  | .firstVersionIgnored typeName =>
    "Ignoring promotion into version 0 of '" ++ typeName ++ "'"

/-- A result, with the notices on the way to it. -/
structure Noted (α : Type) where
  result : α
  notices : List Notice := []

/-- The notice of setting a field, when the field is a base key and so is not set. -/
def Node.fieldNotices (node : Node) (field : String) : List Notice :=
  if isBaseKey field then [.baseFieldIgnored field node.typeName] else []

end DocTree
