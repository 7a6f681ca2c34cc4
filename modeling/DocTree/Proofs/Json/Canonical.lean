import DocTree.Json.Reader
import DocTree.Proofs.Foundations

/-!
# Canonical values

A canonical object is the object of exactly one map, so nothing of it is lost when it is read as
a map. Every value that is read from a text is canonical.

## Main statements

* `Json.Canonical.eq_ofMap` — a canonical object is that of its map.
* `Json.Canonical.of_parse` — what a text holds is canonical.
-/

namespace DocTree

namespace Json

/-! ## Items and members -/

theorem canonicalItems_iff {items : List Json} :
    CanonicalItems items ↔ ∀ item ∈ items, item.Canonical := by
  induction items with
  | nil => simp [CanonicalItems]
  | cons item items ih => simp [CanonicalItems, ih]

theorem canonicalMembers_iff {members : List (String × Json)} :
    CanonicalMembers members ↔ ∀ entry ∈ members, entry.2.Canonical := by
  induction members with
  | nil => simp [CanonicalMembers]
  | cons first rest ih =>
    obtain ⟨key, value⟩ := first
    simp [CanonicalMembers, ih]

theorem canonical_array_iff {items : List Json} :
    (Json.array items).Canonical ↔ ∀ item ∈ items, item.Canonical := by
  rw [Canonical, canonicalItems_iff]

theorem canonical_ofMap_iff {map : KeyMap Json} :
    (ofMap map).Canonical ↔ ∀ key value, map.get? key = some value → value.Canonical := by
  simp only [ofMap, Canonical, KeyMap.inOrder_of_ordered map.ordered, canonicalMembers_iff,
    true_and]
  exact ⟨fun h key value found => h (key, value) (KeyMap.mem_entries_iff.2 found),
    fun h entry mem => h entry.1 entry.2 (KeyMap.mem_entries_iff.1 mem)⟩

mutual

/-- Whether a value is canonical. -/
def decideCanonical : (value : Json) → Decidable value.Canonical
  | .array items => decideItems items
  | .object members =>
    have := decideMembers members
    inferInstanceAs (Decidable (_ ∧ _))
  | .null | .bool _ | .number _ | .string _ => .isTrue trivial

/-- Whether all values are canonical. -/
def decideItems : (items : List Json) → Decidable (CanonicalItems items)
  | [] => .isTrue trivial
  | item :: items =>
    have := decideCanonical item
    have := decideItems items
    inferInstanceAs (Decidable (_ ∧ _))

/-- Whether all member values are canonical. -/
def decideMembers : (members : List (String × Json)) → Decidable (CanonicalMembers members)
  | [] => .isTrue trivial
  | (_, value) :: members =>
    have := decideCanonical value
    have := decideMembers members
    inferInstanceAs (Decidable (_ ∧ _))

end

instance : DecidablePred Json.Canonical := decideCanonical

/-! ## Objects as maps -/

theorem map?_eq_some_iff {value : Json} {map : KeyMap Json} :
    value.map? = some map ↔ ∃ members, value = .object members ∧ .ofList members = map := by
  cases value <;> simp [map?]

namespace Canonical

theorem eq_ofMap {value : Json} (h : value.Canonical) {map : KeyMap Json}
    (object : value.map? = some map) : value = ofMap map := by
  obtain ⟨members, rfl, rfl⟩ := map?_eq_some_iff.1 object
  rw [ofMap, KeyMap.entries_ofList h.1]

theorem get? {value : Json} (h : value.Canonical) {map : KeyMap Json}
    (object : value.map? = some map) {key : String} {member : Json}
    (found : map.get? key = some member) : member.Canonical :=
  canonical_ofMap_iff.1 (h.eq_ofMap object ▸ h) key member found

theorem get?_items {value : Json} (h : value.Canonical) {map : KeyMap Json}
    (object : value.map? = some map) {key : String} {items : List Json}
    (found : map.get? key = some (.array items)) {item : Json} (mem : item ∈ items) :
    item.Canonical :=
  canonical_array_iff.1 (h.get? object found) item mem

end Canonical

end Json

/-! ## Values from text -/

open Json

theorem canonical_ofList {members : List (String × Json)}
    (h : ∀ entry ∈ members, entry.2.Canonical) : (ofMap (.ofList members)).Canonical :=
  canonical_ofMap_iff.2 fun key value found =>
    h (key, value) (KeyMap.mem_of_mem_ofList (KeyMap.mem_entries_iff.2 found))

/-- All that an open container holds so far is canonical. -/
def Frame.Canonical : Frame → Prop
  | .array items => ∀ item ∈ items, item.Canonical
  | .object members _ => ∀ entry ∈ members, entry.2.Canonical

/-- All that was read so far is canonical. -/
def Progress.Canonical : Progress → Prop
  | .finished value _ => value.Canonical
  | .due frames _ => ∀ frame ∈ frames, frame.Canonical

/-- Closing containers keeps what was read canonical. -/
theorem complete_canonical {value : Json} {frames : List Frame} {text : List Char}
    {progress : Progress} (read : complete value frames text = .ok progress)
    (canonical : value.Canonical) (held : ∀ frame ∈ frames, frame.Canonical) :
    progress.Canonical := by
  fun_induction complete value frames text with
  | case1 => cases read; exact canonical
  | case2 value items frames text rest closed ih =>
    have ⟨first, others⟩ := List.forall_mem_cons.1 held
    refine ih read (canonical_array_iff.2 ?_) others
    intro item mem
    rcases List.mem_cons.1 (List.mem_reverse.1 mem) with rfl | mem
    · exact canonical
    · exact first item mem
  | case5 value items frames text rest =>
    cases read
    have ⟨first, others⟩ := List.forall_mem_cons.1 held
    exact List.forall_mem_cons.2 ⟨List.forall_mem_cons.2 ⟨canonical, first⟩, others⟩
  | case8 value members key frames text rest closed ih =>
    have ⟨first, others⟩ := List.forall_mem_cons.1 held
    refine ih read (canonical_ofList ?_) others
    intro entry mem
    rcases List.mem_cons.1 (List.mem_reverse.1 mem) with rfl | mem
    · exact canonical
    · exact first entry mem
  | case10 value members key frames text rest =>
    obtain ⟨⟨next, rest⟩, -, read⟩ := Except.bind_eq_ok_iff.1 read
    cases read
    have ⟨first, others⟩ := List.forall_mem_cons.1 held
    exact List.forall_mem_cons.2 ⟨List.forall_mem_cons.2 ⟨canonical, first⟩, others⟩
  | _ => cases read

/-- One step of the reader keeps what was read canonical. -/
theorem readNext_canonical {room : Option Nat} {frames : List Frame} {text : List Char}
    {progress : Progress} (read : readNext room frames text = .ok progress)
    (held : ∀ frame ∈ frames, frame.Canonical) : progress.Canonical := by
  have opened : ∀ frame : Frame, frame.Canonical → ∀ rest,
      (Progress.due (frame :: frames) rest).Canonical :=
    fun frame empty rest => List.forall_mem_cons.2 ⟨empty, held⟩
  unfold readNext at read
  dsimp only at read
  split at read
  case h_1 => cases read
  case h_2 | h_3 | h_4 | h_5 | h_6 =>
    obtain ⟨_, -, read⟩ := Except.bind_eq_ok_iff.1 read
    exact complete_canonical read trivial held
  case h_7 =>
    split at read
    · cases read
    · split at read
      · cases read
      · exact complete_canonical read trivial held
      · cases read
        exact opened (.array []) (List.forall_mem_nil _) _
  case h_8 =>
    split at read
    · cases read
    · split at read
      · cases read
      · exact complete_canonical read ⟨rfl, trivial⟩ held
      · obtain ⟨_, -, read⟩ := Except.bind_eq_ok_iff.1 read
        cases read
        exact opened (.object [] _) (List.forall_mem_nil _) _
      · cases read
  case h_9 =>
    split at read
    · obtain ⟨_, -, read⟩ := Except.bind_eq_ok_iff.1 read
      exact complete_canonical read trivial held
    · cases read

theorem readFrames_canonical {room : Option Nat} {fuel : Nat} {frames : List Frame}
    {text rest : List Char} {value : Json}
    (read : readFrames room fuel frames text = .ok (value, rest))
    (held : ∀ frame ∈ frames, frame.Canonical) : value.Canonical := by
  induction fuel generalizing frames text with
  | zero => cases read
  | succ fuel ih =>
    obtain ⟨progress, next, read⟩ := Except.bind_eq_ok_iff.1 read
    have canonical := readNext_canonical next held
    cases progress with
    | finished value rest => cases read; exact canonical
    | due frames rest => exact ih read canonical

/-- What a text holds is canonical. -/
theorem Json.Canonical.of_parse {text : String} {value : Json}
    (read : Json.parse text = .ok value) : value.Canonical := by
  obtain ⟨⟨found, rest⟩, first, read⟩ := Except.bind_eq_ok_iff.1 (Except.mapError_eq_ok_iff.1 read)
  obtain ⟨-, -, read⟩ := Except.bind_eq_ok_iff.1 read
  cases read
  exact readFrames_canonical first (List.forall_mem_nil _)

end DocTree
