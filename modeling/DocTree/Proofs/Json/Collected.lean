import DocTree.Proofs.Json.Canonical

/-!
# Written members

A writer puts out the members of an object one by one, in an order of its own, and nothing keeps it
from putting out a key twice. A reader that collects the members into a map keeps the last member of
each key.

## Main definitions

* `Json.KeysOnce` — no object has two members with one key.
* `Json.collected` — the value that a reader has of what was written.

## Main statements

* `Json.Canonical.keysOnce` — a canonical object has each key once.
* `Json.Canonical.collected_eq` — a canonical value is collected as it is.
-/

namespace DocTree
namespace Json

/-! ## Definitions -/

mutual

/-- No object in a value has two members with one key. -/
def KeysOnce : Json → Prop
  | .array items => KeysOnceItems items
  | .object members => (members.map (·.1)).Nodup ∧ KeysOnceMembers members
  | _ => True

/-- No object in any of the values has two members with one key. -/
def KeysOnceItems : List Json → Prop
  | [] => True
  | item :: items => item.KeysOnce ∧ KeysOnceItems items

/-- No object in any of the members has two members with one key. -/
def KeysOnceMembers : List (String × Json) → Prop
  | [] => True
  | (_, value) :: members => value.KeysOnce ∧ KeysOnceMembers members

end

mutual

/-- The value with the members of each object collected into a map, where the last member of a key
stays. -/
def collected : Json → Json
  | .array items => .array (collectedItems items)
  | .object members => .ofMap (.ofList (collectedMembers members))
  | .null => .null
  | .bool value => .bool value
  | .number value => .number value
  | .string value => .string value

/-- The values with the members of each object collected. -/
def collectedItems : List Json → List Json
  | [] => []
  | item :: items => item.collected :: collectedItems items

/-- The members with the members of each object below them collected. -/
def collectedMembers : List (String × Json) → List (String × Json)
  | [] => []
  | (key, value) :: members => (key, value.collected) :: collectedMembers members

end

/-! ## Items and members -/

theorem keysOnceItems_iff {items : List Json} :
    KeysOnceItems items ↔ ∀ item ∈ items, item.KeysOnce := by
  induction items with
  | nil => simp [KeysOnceItems]
  | cons item items ih => simp [KeysOnceItems, ih]

theorem keysOnceMembers_iff {members : List (String × Json)} :
    KeysOnceMembers members ↔ ∀ entry ∈ members, entry.2.KeysOnce := by
  induction members with
  | nil => simp [KeysOnceMembers]
  | cons first members ih =>
    obtain ⟨key, value⟩ := first
    simp [KeysOnceMembers, ih]

theorem collectedItems_eq_map (items : List Json) :
    collectedItems items = items.map collected := by
  induction items with
  | nil => rfl
  | cons item items ih => rw [collectedItems, ih, List.map_cons]

theorem collectedMembers_eq_map (members : List (String × Json)) :
    collectedMembers members = members.map fun entry => (entry.1, entry.2.collected) := by
  induction members with
  | nil => rfl
  | cons first members ih =>
    obtain ⟨key, value⟩ := first
    rw [collectedMembers, ih, List.map_cons]

/-- The entries of a map stay in their order. -/
theorem collected_object_entries {α : Type} (map : KeyMap α) (form : α → Json) :
    (Json.object (map.entries.map fun entry => (entry.1, form entry.2))).collected =
      .object (map.entries.map fun entry => (entry.1, (form entry.2).collected)) := by
  rw [collected, collectedMembers_eq_map, List.map_map, ofMap, KeyMap.entries_ofList]
  · rfl
  · exact KeyMap.inOrder_of_ordered (List.pairwise_map.2 map.ordered)

/-! ## Canonical values -/

mutual

/-- A canonical value has each key of its objects once. -/
theorem Canonical.keysOnce : ∀ {value : Json}, value.Canonical → value.KeysOnce
  | .array items, h => by
    rw [KeysOnce]
    exact keysOnceItems_of_canonical h
  | .object members, h => by
    rw [KeysOnce]
    exact ⟨KeyMap.keys_nodup ⟨members, KeyMap.ordered_of_inOrder h.1⟩,
      keysOnceMembers_of_canonical h.2⟩
  | .null, _ => trivial
  | .bool _, _ => trivial
  | .number _, _ => trivial
  | .string _, _ => trivial

theorem keysOnceItems_of_canonical : ∀ {items : List Json}, CanonicalItems items →
    KeysOnceItems items
  | [], _ => trivial
  | _ :: _, h => ⟨h.1.keysOnce, keysOnceItems_of_canonical h.2⟩

theorem keysOnceMembers_of_canonical : ∀ {members : List (String × Json)},
    CanonicalMembers members → KeysOnceMembers members
  | [], _ => trivial
  | (_, _) :: _, h => ⟨h.1.keysOnce, keysOnceMembers_of_canonical h.2⟩

end

mutual

/-- A canonical value is collected as it is. -/
theorem Canonical.collected_eq : ∀ {value : Json}, value.Canonical → value.collected = value
  | .array items, h => by
    rw [collected, collectedItems_of_canonical h]
  | .object members, h => by
    rw [collected, collectedMembers_of_canonical h.2, ofMap, KeyMap.entries_ofList h.1]
  | .null, _ => rfl
  | .bool _, _ => rfl
  | .number _, _ => rfl
  | .string _, _ => rfl

theorem collectedItems_of_canonical : ∀ {items : List Json}, CanonicalItems items →
    collectedItems items = items
  | [], _ => rfl
  | _ :: _, h => by rw [collectedItems, h.1.collected_eq, collectedItems_of_canonical h.2]

theorem collectedMembers_of_canonical : ∀ {members : List (String × Json)},
    CanonicalMembers members → collectedMembers members = members
  | [], _ => rfl
  | (_, _) :: _, h => by
    rw [collectedMembers, h.1.collected_eq, collectedMembers_of_canonical h.2]

end

end Json
end DocTree
