import DocTree.Json.Number
import DocTree.KeyMap

/-!
# JSON values

The members of an object that was read are in increasing key order, one for each key. Equality
of values is that of their numbers: `0.0` equals `-0.0`, and an integer equals no double.

## Main definitions

- `Json`: a JSON value.
- `Json.same`: equality of values, an equivalence relation.
- `Json.kindName`: the kind of a value, as messages name it.
- `Json.Canonical`: whether the members of every object are in increasing key order.
-/

namespace DocTree

/-- A JSON value. -/
inductive Json where
  | null
  | bool (value : Bool)
  | number (value : Number)
  | string (value : String)
  | array (items : List Json)
  | object (members : List (String × Json))
deriving Repr, Inhabited

namespace Json

/-! ## Equality -/

mutual

/-- Equality of values. -/
def same : Json → Json → Bool
  | .null, .null => true
  | .bool x, .bool y => x == y
  | .number x, .number y => x.same y
  | .string x, .string y => x == y
  | .array xs, .array ys => sameItems xs ys
  | .object xs, .object ys => sameMembers xs ys
  | _, _ => false

/-- Equality of lists of values. -/
def sameItems : List Json → List Json → Bool
  | [], [] => true
  | x :: xs, y :: ys => x.same y && sameItems xs ys
  | _, _ => false

/-- Equality of members in their order. -/
def sameMembers : List (String × Json) → List (String × Json) → Bool
  | [], [] => true
  | (k, x) :: xs, (l, y) :: ys => k == l && x.same y && sameMembers xs ys
  | _, _ => false

end

instance : BEq Json := ⟨same⟩

mutual

@[simp] theorem same_refl : ∀ x : Json, x.same x = true
  | .null => by simp [same]
  | .bool _ => by simp [same]
  | .number _ => by simp [same]
  | .string _ => by simp [same]
  | .array xs => by simp [same, sameItems_refl xs]
  | .object xs => by simp [same, sameMembers_refl xs]

@[simp] theorem sameItems_refl : ∀ xs : List Json, sameItems xs xs = true
  | [] => rfl
  | x :: xs => by simp [sameItems, same_refl x, sameItems_refl xs]

@[simp] theorem sameMembers_refl : ∀ xs : List (String × Json), sameMembers xs xs = true
  | [] => rfl
  | (_, x) :: xs => by simp [sameMembers, same_refl x, sameMembers_refl xs]

end

mutual

theorem same_comm : ∀ x y : Json, x.same y = y.same x
  | .null, y => by cases y <;> simp [same]
  | .bool _, y => by cases y <;> simp [same, Bool.beq_comm]
  | .number _, y => by cases y <;> simp [same, Number.same_comm]
  | .string _, y => by cases y <;> simp [same, Bool.beq_comm]
  | .array xs, y => by
    cases y with
    | array ys => simp [same, sameItems_comm xs ys]
    | _ => simp [same]
  | .object xs, y => by
    cases y with
    | object ys => simp [same, sameMembers_comm xs ys]
    | _ => simp [same]

theorem sameItems_comm : ∀ xs ys : List Json, sameItems xs ys = sameItems ys xs
  | [], ys => by cases ys <;> simp [sameItems]
  | x :: xs, ys => by
    cases ys with
    | nil => simp [sameItems]
    | cons y ys => simp [sameItems, same_comm x y, sameItems_comm xs ys]

theorem sameMembers_comm :
    ∀ xs ys : List (String × Json), sameMembers xs ys = sameMembers ys xs
  | [], ys => by cases ys <;> simp [sameMembers]
  | (k, x) :: xs, ys => by
    rcases ys with _ | ⟨⟨l, y⟩, ys⟩
    · simp [sameMembers]
    · simp [sameMembers, same_comm x y, sameMembers_comm xs ys, Bool.beq_comm (a := k)]

end

mutual

theorem same_trans : ∀ {x y z : Json}, x.same y = true → y.same z = true → x.same z = true
  | .null, y, z, hxy, hyz => by cases y <;> cases z <;> simp_all [same]
  | .bool _, y, z, hxy, hyz => by cases y <;> cases z <;> simp_all [same]
  | .number _, y, z, hxy, hyz => by
    cases y <;> cases z <;> simp_all [same]
    exact Number.same_trans hxy hyz
  | .string _, y, z, hxy, hyz => by cases y <;> cases z <;> simp_all [same]
  | .array xs, y, z, hxy, hyz => by
    cases y <;> cases z <;> simp [same] at hxy hyz ⊢
    exact sameItems_trans hxy hyz
  | .object xs, y, z, hxy, hyz => by
    cases y <;> cases z <;> simp [same] at hxy hyz ⊢
    exact sameMembers_trans hxy hyz

theorem sameItems_trans : ∀ {xs ys zs : List Json},
    sameItems xs ys = true → sameItems ys zs = true → sameItems xs zs = true
  | [], ys, zs, hxy, hyz => by cases ys <;> cases zs <;> simp_all [sameItems]
  | x :: xs, ys, zs, hxy, hyz => by
    cases ys <;> cases zs <;> simp [sameItems] at hxy hyz ⊢
    exact ⟨same_trans hxy.1 hyz.1, sameItems_trans hxy.2 hyz.2⟩

theorem sameMembers_trans : ∀ {xs ys zs : List (String × Json)},
    sameMembers xs ys = true → sameMembers ys zs = true → sameMembers xs zs = true
  | [], ys, zs, hxy, hyz => by cases ys <;> cases zs <;> simp_all [sameMembers]
  | (k, x) :: xs, ys, zs, hxy, hyz => by
    rcases ys with _ | ⟨⟨l, y⟩, ys⟩ <;> rcases zs with _ | ⟨⟨m, z⟩, zs⟩ <;>
      simp [sameMembers] at hxy hyz ⊢
    exact ⟨⟨hxy.1.1.trans hyz.1.1, same_trans hxy.1.2 hyz.1.2⟩, sameMembers_trans hxy.2 hyz.2⟩

end

/-! ## Parts and kinds -/

/-- The object of a map. -/
def ofMap (map : KeyMap Json) : Json := .object map.entries

/-- The members of an object as a map. -/
def map? : Json → Option (KeyMap Json)
  | .object members => some (KeyMap.ofList members)
  | _ => none

@[simp] theorem map?_ofMap (map : KeyMap Json) : (ofMap map).map? = some map := by
  simp [ofMap, map?]

/-- The text of a string. -/
def string? : Json → Option String
  | .string value => some value
  | _ => none

/-- The items of an array. -/
def items? : Json → Option (List Json)
  | .array items => some items
  | _ => none

/-- The kind of a value, as messages name it. -/
def kindName : Json → String
  | .null => "null"
  | .bool _ => "boolean"
  | .number _ => "number"
  | .string _ => "string"
  | .array _ => "array"
  | .object _ => "object"

mutual

/-- The members of every object are in increasing key order. -/
def Canonical : Json → Prop
  | .array items => CanonicalItems items
  | .object members => KeyMap.inOrder members = true ∧ CanonicalMembers members
  | _ => True

/-- All values are canonical. -/
def CanonicalItems : List Json → Prop
  | [] => True
  | item :: items => item.Canonical ∧ CanonicalItems items

/-- All member values are canonical. -/
def CanonicalMembers : List (String × Json) → Prop
  | [] => True
  | (_, value) :: members => value.Canonical ∧ CanonicalMembers members

end

end Json
end DocTree
