import DocTree.Proofs.Json.Canonical

/-!
# Nesting

How many containers lie inside each other in a value. The reader of documents keeps the containers
that are open on a list and has no limit for them, so that values of any nesting can be read.

## Main definitions

* `Json.nesting` — the largest number of containers inside each other.
* `Json.brackets` — arrays inside each other, the innermost one without items.

## Main statements

* `Json.nesting_array_le_iff`, `Json.nesting_ofMap_le_iff` — the nesting of a container is one more
  than that of its parts.
* `readFrames_brackets` — brackets are read to any nesting.
-/

namespace DocTree
namespace Json

/-! ## The nesting of a value -/

mutual

/-- The largest number of containers inside each other in a value. -/
def nesting : Json → Nat
  | .array items => nestingItems items + 1
  | .object members => nestingMembers members + 1
  | _ => 0

/-- The largest nesting among values. -/
def nestingItems : List Json → Nat
  | [] => 0
  | item :: items => max item.nesting (nestingItems items)

/-- The largest nesting among the values of members. -/
def nestingMembers : List (String × Json) → Nat
  | [] => 0
  | (_, value) :: members => max value.nesting (nestingMembers members)

end

theorem nestingItems_le_iff {items : List Json} {n : Nat} :
    nestingItems items ≤ n ↔ ∀ item ∈ items, item.nesting ≤ n := by
  induction items with
  | nil => simp [nestingItems]
  | cons item items ih => rw [nestingItems, Nat.max_le, ih, List.forall_mem_cons]

theorem nestingMembers_le_iff {members : List (String × Json)} {n : Nat} :
    nestingMembers members ≤ n ↔ ∀ entry ∈ members, entry.2.nesting ≤ n := by
  induction members with
  | nil => simp [nestingMembers]
  | cons first members ih =>
    obtain ⟨key, value⟩ := first
    rw [nestingMembers, Nat.max_le, ih, List.forall_mem_cons]

theorem nesting_array_le_iff {items : List Json} {n : Nat} :
    (array items).nesting ≤ n + 1 ↔ ∀ item ∈ items, item.nesting ≤ n := by
  rw [nesting, Nat.add_le_add_iff_right, nestingItems_le_iff]

theorem nesting_ofMap_le_iff {map : KeyMap Json} {n : Nat} :
    (ofMap map).nesting ≤ n + 1 ↔ ∀ key value, map.get? key = some value → value.nesting ≤ n := by
  rw [ofMap, nesting, Nat.add_le_add_iff_right, nestingMembers_le_iff]
  exact ⟨fun h key value found => h (key, value) (KeyMap.mem_entries_iff.2 found),
    fun h entry mem => h entry.1 entry.2 (KeyMap.mem_entries_iff.1 mem)⟩

/-- What an object holds nests less deep than the object. -/
theorem nesting_lt_of_get? {map : KeyMap Json} {key : String} {value : Json}
    (found : map.get? key = some value) : value.nesting < (ofMap map).nesting := by
  have parts : (ofMap map).nesting ≤ nestingMembers map.entries + 1 := Nat.le_refl _
  exact Nat.lt_succ_of_le (nesting_ofMap_le_iff.1 parts key value found)

/-! ## Brackets -/

/-- So many arrays around an array without items, each the only item of the one around it. -/
def brackets : Nat → Json
  | 0 => .array []
  | n + 1 => .array [brackets n]

@[simp] theorem nesting_brackets (n : Nat) : (brackets n).nesting = n + 1 := by
  induction n with
  | zero => rfl
  | succ n ih => simp [brackets, nesting, nestingItems, ih]

theorem canonical_brackets (n : Nat) : (brackets n).Canonical := by
  induction n with
  | zero => trivial
  | succ n ih => exact ⟨ih, trivial⟩

end Json

/-! ## Reading brackets -/

open Json

/-- Each opening bracket before another one opens an array. -/
theorem readFrames_opening (fuel n : Nat) (frames : List Frame) (rest : List Char) :
    readFrames none (fuel + n) frames (.replicate n '[' ++ '[' :: rest) =
      readFrames none fuel (.replicate n (.array []) ++ frames) ('[' :: rest) := by
  induction n generalizing frames with
  | zero => rfl
  | succ n ih =>
    have next : ∃ tail, List.replicate n '[' ++ '[' :: rest = '[' :: tail := by
      cases n <;> exact ⟨_, rfl⟩
    obtain ⟨tail, next⟩ := next
    have opened : readFrames none (fuel + n + 1) frames ('[' :: '[' :: tail) =
        readFrames none (fuel + n) (.array [] :: frames) ('[' :: tail) := rfl
    rw [List.replicate_succ, List.cons_append, next, ← Nat.add_assoc, opened, ← next, ih,
      List.replicate_succ', List.append_assoc]
    rfl

/-- Each closing bracket closes the innermost array. -/
theorem complete_closing (n depth : Nat) (frames : List Frame) (rest : List Char) :
    complete (brackets depth) (.replicate n (.array []) ++ frames) (.replicate n ']' ++ rest) =
      complete (brackets (depth + n)) frames rest := by
  induction n generalizing depth with
  | zero => rfl
  | succ n ih =>
    have closed : complete (brackets depth) (.array [] :: (.replicate n (.array []) ++ frames))
        (']' :: (.replicate n ']' ++ rest)) =
          complete (brackets (depth + 1)) (.replicate n (.array []) ++ frames)
            (.replicate n ']' ++ rest) := rfl
    rw [List.replicate_succ, List.replicate_succ, List.cons_append, List.cons_append, closed, ih,
      Nat.add_right_comm, Nat.add_assoc]

/-- The text of so many arrays around an array without items. -/
def bracketsText (n : Nat) : List Char := .replicate (n + 1) '[' ++ .replicate (n + 1) ']'

/-- Where a value is due, brackets are read to any nesting, and closed into the frames around. -/
theorem readFrames_brackets (fuel n : Nat) (frames : List Frame) {rest left : List Char}
    {value : Json} (closed : complete (brackets n) frames rest = .ok (.finished value left)) :
    readFrames none (fuel + 1 + n) frames (bracketsText n ++ rest) = .ok (value, left) := by
  have text : bracketsText n ++ rest =
      .replicate n '[' ++ '[' :: ']' :: (.replicate n ']' ++ rest) := by
    rw [bracketsText, List.replicate_succ', List.replicate_succ]
    simp
  have innermost : readNext none (.replicate n (.array []) ++ frames)
      ('[' :: ']' :: (.replicate n ']' ++ rest)) = .ok (.finished value left) := by
    have empty : readNext none (.replicate n (.array []) ++ frames)
        ('[' :: ']' :: (.replicate n ']' ++ rest)) =
          complete (brackets 0) (.replicate n (.array []) ++ frames)
            (.replicate n ']' ++ rest) := rfl
    rw [empty, complete_closing, Nat.zero_add, closed]
  rw [text, readFrames_opening, readFrames, innermost]
  rfl

end DocTree
