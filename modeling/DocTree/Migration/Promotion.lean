import DocTree.Migration.Mapping
import DocTree.Notice
import DocTree.Registry
import DocTree.Traversal.Rewrite

/-!
# Promotion and demotion

Promotion moves entries of `data` to fields, in all nodes of a type; demotion moves them back.
Neither loses a value: where both places hold values that differ, there is a conflict and no
result.

## Main definitions

- `Promotion`: a type, and the fields that its data keys belong to.
- `Mapping.promote`, `Mapping.demote`: the move in the head of one node.
- `Promotion.promote`, `Promotion.demote`: the move in all nodes of the type.
-/

namespace DocTree

/-- Why a promotion, a demotion or a migration fails. -/
inductive PromotionError where
  | conflict (typeName dataKey field : String) (path : Path)
  | undeclaredField (typeName field : String)
  | unknownType (typeName : String)
  | missingStep (typeName : String) (version : UInt32)
  | rewriting (error : RewriteError)
deriving DecidableEq, Repr

/-- The last version that there is. -/
def lastVersion : UInt32 := UInt32.ofNat (UInt32.size - 1)

/-- The words for a failure. -/
def PromotionError.message : PromotionError → String
  | .conflict typeName dataKey field path =>
    "Promotion conflict on " ++ typeName ++ " at " ++ path.text ++ ": data key '" ++ dataKey ++
      "' and field '" ++ field ++ "' hold different values"
  | .undeclaredField typeName field =>
    "Type '" ++ typeName ++ "' does not declare field '" ++ field ++ "'"
  | .unknownType typeName => "Unknown node type: " ++ typeName
  | .missingStep typeName version =>
    let next := if version = lastVersion then version else version + 1
    "No promotion registered for " ++ typeName ++ " from version " ++ version.toNat.repr ++
      " to " ++ next.toNat.repr
  | .rewriting error => "Transform failed: " ++ error.message

/-! ## One node -/

/-- A data key and a field that hold values that differ. -/
structure Clash where
  dataKey : String
  field : String
deriving DecidableEq, Repr

namespace Mapping

/-- Moves the value of a data key, if there is one, to its field. -/
def promoteEntry (head : Head) (dataKey field : String) : Except Clash Head :=
  match head.data.bind (·.get? dataKey) with
  | none => .ok head
  | some value =>
    let head := { head with data := head.data.map (KeyMap.erase · dataKey) }
    match head.fields.get? field with
    | none => .ok { head with fields := head.fields.insert field value }
    | some existing => if existing == value then .ok head else .error ⟨dataKey, field⟩

/-- Moves the value of a field, if there is one, to its data key. -/
def demoteEntry (head : Head) (dataKey field : String) : Except Clash Head :=
  match head.fields.get? field with
  | none => .ok head
  | some value =>
    let data := head.data.getD .empty
    let head := { head with fields := head.fields.erase field, data := some data }
    match data.get? dataKey with
    | none => .ok { head with data := some (data.insert dataKey value) }
    | some existing => if existing == value then .ok head else .error ⟨dataKey, field⟩

/-- Moves the mapped entries of `data` to fields, or nothing when there are none. -/
def promote (mapping : Mapping) (head : Head) : Except Clash (Option Head) :=
  if mapping.pairs.any fun (dataKey, _) => head.data.any (·.contains dataKey) then
    some <$> mapping.pairs.foldlM (fun head pair => promoteEntry head pair.1 pair.2) head
  else .ok none

/-- Moves the mapped fields to `data`, or nothing when there are none. -/
def demote (mapping : Mapping) (head : Head) : Except Clash (Option Head) :=
  if mapping.targets.any head.fields.contains then
    some <$> mapping.pairs.foldlM (fun head pair => demoteEntry head pair.1 pair.2) head
  else .ok none

end Mapping

/-! ## All nodes of a type -/

/-- A type, and the fields that its data keys belong to. -/
structure Promotion where
  typeName : String
  mapping : Mapping

namespace Promotion

/-- Checks that a registry knows the type, and that the type declares all fields. -/
def checkDeclared (promotion : Promotion) (registry : Registry) : Except PromotionError Unit :=
  match registry.get? promotion.typeName with
  | none => .error (.unknownType promotion.typeName)
  | some schema =>
    match promotion.mapping.targets.find? fun field => !schema.fields.contains field with
    | some field => .error (.undeclaredField promotion.typeName field)
    | none => .ok ()

/-- The rule that moves entries in the nodes of the type, and stops at a conflict, which is its
state. -/
def rule (promotion : Promotion) (move : Head → Except Clash (Option Head)) :
    Rule (Option PromotionError) := fun path node failure =>
  if node.typeName ≠ promotion.typeName then (.keep, failure)
  else match move node.head with
    | .ok none => (.keep, failure)
    | .ok (some head) => (.replace (node.mapHead fun _ => head), failure)
    | .error clash =>
      (.stop, some (.conflict promotion.typeName clash.dataKey clash.field path))

/-- Moves entries in all nodes of the type. A base key is no field. A conflict is told of by a
notice besides. -/
def run (promotion : Promotion) (move : Head → Except Clash (Option Head))
    (aborted : String → Notice) (tree : Node) : Noted (Except PromotionError Node) :=
  match promotion.mapping.targets.find? isBaseKey with
  | some field => ⟨.error (.undeclaredField promotion.typeName field), []⟩
  | none =>
    match (promotion.rule move).apply tree none with
    | (.error e, _) => ⟨.error (.rewriting e), []⟩
    | (.ok _, some e) => ⟨.error e, [aborted e.message]⟩
    | (.ok result, none) => ⟨.ok result.tree, []⟩

/-- Moves entries of `data` to fields. -/
def promote (promotion : Promotion) (tree : Node) : Noted (Except PromotionError Node) :=
  promotion.run promotion.mapping.promote .promotionAborted tree

/-- Moves fields to entries of `data`. -/
def demote (promotion : Promotion) (tree : Node) : Noted (Except PromotionError Node) :=
  promotion.run promotion.mapping.demote .demotionAborted tree

end Promotion
end DocTree
