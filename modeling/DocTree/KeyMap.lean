/-!
# Maps keyed by strings

A `KeyMap` holds its entries in strictly increasing key order, so two maps with the same lookups
are the same map and every listing of a map is in key order. The order on strings is by code
point, which is also the order of their UTF-8 bytes.

## Main definitions

- `KeyMap`: the map, with its order as a proof field.
- `KeyMap.insert`, `KeyMap.erase`, `KeyMap.ofList`: the operations that build maps.
- `KeyMap.get?_insert`, `KeyMap.get?_erase`, `KeyMap.ext_get?`: what they do, seen through `get?`.
-/

namespace DocTree

universe u

/-- A finite map from strings, as its entries in strictly increasing key order. -/
structure KeyMap (α : Type u) where
  entries : List (String × α)
  ordered : entries.Pairwise fun a b => a.1 < b.1

namespace KeyMap

variable {α : Type u}

@[ext] theorem ext {m n : KeyMap α} (h : m.entries = n.entries) : m = n := by
  cases m; cases n; simp_all

/-! ## Ordered lists of entries -/

/-- Puts an entry in its place, over the entry of the same key if there is one. -/
def place (key : String) (value : α) : List (String × α) → List (String × α)
  | [] => [(key, value)]
  | entry :: rest =>
    if key < entry.1 then (key, value) :: entry :: rest
    else if key = entry.1 then (key, value) :: rest
    else entry :: place key value rest

theorem key_mem_place {key : String} {value : α} {entries : List (String × α)}
    {entry : String × α} (h : entry ∈ place key value entries) :
    entry.1 = key ∨ entry ∈ entries := by
  induction entries with
  | nil => simp_all [place]
  | cons first rest ih =>
    unfold place at h
    split at h <;> try split at h
    all_goals grind

theorem ordered_place (key : String) (value : α) {entries : List (String × α)}
    (h : entries.Pairwise fun a b => a.1 < b.1) :
    (place key value entries).Pairwise fun a b => a.1 < b.1 := by
  induction entries with
  | nil => simp [place]
  | cons first rest ih =>
    have ⟨below, tail⟩ := List.pairwise_cons.1 h
    unfold place
    split
    · rename_i less
      refine List.pairwise_cons.2 ⟨fun entry mem => ?_, h⟩
      rcases List.mem_cons.1 mem with rfl | mem
      · exact less
      · exact String.lt_trans less (below _ mem)
    · rename_i notLess
      split
      · rename_i same
        exact List.pairwise_cons.2 ⟨fun entry mem => same ▸ below _ mem, tail⟩
      · rename_i notSame
        refine List.pairwise_cons.2 ⟨fun entry mem => ?_, ih tail⟩
        rcases key_mem_place mem with same | mem
        · rw [same]
          exact Decidable.byContradiction fun notGreater =>
            notSame (String.le_antisymm (String.not_lt.1 notGreater) (String.not_lt.1 notLess))
        · exact below _ mem

theorem lookup_place (key k : String) (value : α) (entries : List (String × α)) :
    (place key value entries).lookup k =
      if k = key then some value else entries.lookup k := by
  induction entries with
  | nil => grind [place]
  | cons first rest ih => obtain ⟨f, v⟩ := first; grind [place]

/-- Whether each key is below the next one. -/
def inOrder : List (String × α) → Bool
  | [] => true
  | entry :: rest => rest.head?.all (fun next => decide (entry.1 < next.1)) && inOrder rest

theorem ordered_of_inOrder {entries : List (String × α)} (h : inOrder entries = true) :
    entries.Pairwise fun a b => a.1 < b.1 := by
  induction entries with
  | nil => exact .nil
  | cons first rest ih =>
    obtain ⟨next, tail⟩ := Bool.and_eq_true_iff.1 h
    have sorted := ih tail
    refine List.pairwise_cons.2 ⟨fun entry mem => ?_, sorted⟩
    cases rest with
    | nil => cases mem
    | cons second rest =>
      have less : first.1 < second.1 := of_decide_eq_true next
      rcases List.mem_cons.1 mem with rfl | mem
      · exact less
      · exact String.lt_trans less ((List.pairwise_cons.1 sorted).1 _ mem)

theorem inOrder_of_ordered {entries : List (String × α)}
    (h : entries.Pairwise fun a b => a.1 < b.1) : inOrder entries = true := by
  induction entries with
  | nil => rfl
  | cons first rest ih =>
    have ⟨below, tail⟩ := List.pairwise_cons.1 h
    cases rest with
    | nil => rfl
    | cons second rest =>
      exact Bool.and_eq_true_iff.2
        ⟨decide_eq_true (below second List.mem_cons_self), ih tail⟩

/-! ## Operations -/

/-- The map without entries. -/
def empty : KeyMap α := ⟨[], .nil⟩

instance : EmptyCollection (KeyMap α) := ⟨empty⟩
instance : Inhabited (KeyMap α) := ⟨empty⟩

instance [BEq α] : BEq (KeyMap α) := ⟨fun m n => m.entries == n.entries⟩

/-- The value of a key. -/
def get? (m : KeyMap α) (key : String) : Option α := m.entries.lookup key

/-- Whether a key has a value. -/
def contains (m : KeyMap α) (key : String) : Bool := (m.get? key).isSome

/-- Sets the value of a key. -/
def insert (m : KeyMap α) (key : String) (value : α) : KeyMap α :=
  ⟨place key value m.entries, ordered_place key value m.ordered⟩

/-- The entries that a test on keys and values keeps. -/
def filter (m : KeyMap α) (keep : String → α → Bool) : KeyMap α :=
  ⟨m.entries.filter fun entry => keep entry.1 entry.2, m.ordered.filter _⟩

/-- Takes a key and its value away. -/
def erase (m : KeyMap α) (key : String) : KeyMap α := m.filter fun k _ => k != key

/-- Enters all pairs in turn, so that the last pair of a key decides. -/
def ofList (pairs : List (String × α)) : KeyMap α :=
  if h : inOrder pairs = true then ⟨pairs, ordered_of_inOrder h⟩
  else pairs.foldl (fun m entry => m.insert entry.1 entry.2) empty

/-- The keys, in order. -/
def keys (m : KeyMap α) : List String := m.entries.map (·.1)

/-- The values, in the order of their keys. -/
def values (m : KeyMap α) : List α := m.entries.map (·.2)

/-- The number of entries. -/
def size (m : KeyMap α) : Nat := m.entries.length

/-- Whether there are no entries. -/
def isEmpty (m : KeyMap α) : Bool := m.entries.isEmpty

/-! ## What the operations do to `get?` -/

@[simp] theorem get?_empty (key : String) : (empty : KeyMap α).get? key = none := rfl

theorem get?_insert (m : KeyMap α) (key k : String) (value : α) :
    (m.insert key value).get? k = if k = key then some value else m.get? k :=
  lookup_place key k value m.entries

@[simp] theorem get?_insert_self (m : KeyMap α) (key : String) (value : α) :
    (m.insert key value).get? key = some value := by simp [get?_insert]

theorem get?_erase (m : KeyMap α) (key k : String) :
    (m.erase key).get? k = if k = key then none else m.get? k := by
  obtain ⟨entries, ordered⟩ := m
  simp only [get?, erase, filter]
  clear ordered
  induction entries with
  | nil => simp
  | cons first rest ih => obtain ⟨f, v⟩ := first; grind

@[simp] theorem get?_erase_self (m : KeyMap α) (key : String) : (m.erase key).get? key = none := by
  simp [get?_erase]

theorem mem_entries_iff {m : KeyMap α} {key : String} {value : α} :
    (key, value) ∈ m.entries ↔ m.get? key = some value := by
  obtain ⟨entries, ordered⟩ := m
  simp only [get?]
  induction entries with
  | nil => simp
  | cons first rest ih =>
    obtain ⟨f, v⟩ := first
    have ⟨below, tail⟩ := List.pairwise_cons.1 ordered
    have later : ∀ w, (f, w) ∉ rest := fun w mem => String.lt_irrefl _ (below (f, w) mem)
    grind

@[simp] theorem ofList_entries (m : KeyMap α) : ofList m.entries = m := by
  simp [ofList, inOrder_of_ordered m.ordered]

/-- A map is determined by its lookups. -/
theorem ext_get? {m n : KeyMap α} (h : ∀ key, m.get? key = n.get? key) : m = n := by
  have mem : ∀ entry, entry ∈ m.entries ↔ entry ∈ n.entries := fun (key, value) => by
    rw [mem_entries_iff, mem_entries_iff, h]
  have distinct : ∀ l : KeyMap α, l.entries.Nodup := fun l =>
    l.ordered.imp fun {a b} (less : a.1 < b.1) (same : a = b) =>
      String.lt_irrefl b.1 (same ▸ less)
  exact ext (((List.perm_ext_iff_of_nodup (distinct m) (distinct n)).2 mem).eq_of_pairwise
    (fun _ _ _ _ less greater => absurd greater (String.lt_asymm less)) m.ordered n.ordered)

end KeyMap
end DocTree
