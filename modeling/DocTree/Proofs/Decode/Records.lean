import DocTree.Decode.Value
import DocTree.Proofs.Json.Collected
import DocTree.Schema.Basic
import Mathlib.Data.List.Nodup
import Mathlib.Data.List.Pairwise
import Mathlib.Data.List.Perm.Basic

/-!
# Records

The members of an object are read one by one, each into a part of its own of a record. So the order
of the members does not matter, as long as no key stands twice; in particular, they may be collected
into a map before the record is read.

## Main definitions

* `Decoder.entering` — what a member sets in a record.
* `Decoder.Sets` — what members come to, one after the other.
* `Slot.Apart` — two slots set different parts.

## Main statements

* `Decoder.members_perm`, `Decoder.record_perm` — the order of the members does not matter.
* `Decoder.record_collected` — the members may be collected into a map first.
* `Decoder.Sets.record_eq_ok` — a record is read when its members can be.
* `Decoder.table_eq_ok` — the entries of a map are read back as the map.
-/

namespace DocTree

open Format

variable {α β σ : Type}

/-! ## Lists -/

/-- Items that are read back from their forms one by one are read back from the list of these. -/
theorem Except.mapM_map_eq_ok {ε : Type} {step : β → Except ε α} {form : α → β} {items : List α}
    (reads : ∀ item ∈ items, step (form item) = .ok item) :
    (items.map form).mapM step = .ok items := by
  rw [mapM_eq_ok_iff, List.map_map]
  exact List.map_congr_left reads

/-- Pairs with different keys are the entries of the map that they are read as. -/
theorem KeyMap.entries_ofList_perm {pairs : List (String × α)} (once : (pairs.map (·.1)).Nodup) :
    (ofList pairs).entries.Perm pairs := by
  refine (List.perm_ext_iff_of_nodup (.of_map _ (keys_nodup _)) (.of_map _ once)).2 ?_
  rintro ⟨key, value⟩
  constructor
  · exact mem_of_mem_ofList
  · intro mem
    refine mem_entries_iff.2 (get?_ofList_of_mem mem fun other mem' => ?_)
    exact congrArg Prod.snd (List.inj_on_of_nodup_map once mem' mem rfl)

/-- A map is read from its entries in any order. -/
theorem KeyMap.ofList_of_perm {map : KeyMap α} {pairs : List (String × α)}
    (perm : pairs.Perm map.entries) : ofList pairs = map := by
  have once : (pairs.map (·.1)).Nodup := (perm.map _).nodup_iff.2 map.keys_nodup
  have entries := (entries_ofList_perm once).trans perm
  refine ext_get? fun key => Option.ext fun value => ?_
  rw [← mem_entries_iff, ← mem_entries_iff, entries.mem_iff]

/-! ## Slots -/

theorem Decoder.map_eq_ok_iff {f : α → β} {decoder : Decoder α} {value : Json} {b : β} :
    (Format.map f decoder : Decoder β) value = .ok b ↔ ∃ a, decoder value = .ok a ∧ f a = b := by
  change (decoder value).map f = .ok b ↔ _
  cases decoder value <;> simp [Except.map]

/-- Two slots set different parts: what is read by them may be set in either order. -/
def Slot.Apart (s t : Slot Decoder σ) : Prop :=
  ∀ v w f g, s.read v = .ok f → t.read w = .ok g → ∀ record, f (g record) = g (f record)

instance : Std.Symm (@Slot.Apart σ) where
  symm _ _ apart v w f g read read' record := (apart w v g f read' read record).symm

/-- Slots are apart when what their values set commutes. -/
theorem Slot.apart_slot {name other : String} {absence absence' : Absence} {decoder : Decoder α}
    {decoder' : Decoder β} {set : α → σ → σ} {set' : β → σ → σ}
    (comm : ∀ a b record, set a (set' b record) = set' b (set a record)) :
    (slot name absence decoder set).Apart (slot other absence' decoder' set') := by
  intro v w f g read read' record
  obtain ⟨a, -, rfl⟩ := Decoder.map_eq_ok_iff.1 read
  obtain ⟨b, -, rfl⟩ := Decoder.map_eq_ok_iff.1 read'
  exact comm a b record

theorem Slot.missing?_congr {slots : List (Slot Decoder σ)} {seen other : List String}
    (same : ∀ name, name ∈ seen ↔ name ∈ other) :
    Slot.missing? slots seen = Slot.missing? slots other := by
  have contains : ∀ name, seen.contains name = other.contains name := fun name => by
    rw [Bool.eq_iff_iff, List.contains_iff_mem, List.contains_iff_mem, same]
  simp only [missing?, contains]

namespace Decoder

/-! ## Values -/

theorem naturalOf_nat {width : Width} {n : Nat} (fits : n < width.bound) :
    naturalOf width (.number (.int n)) = .ok n :=
  if_pos ⟨Int.natCast_nonneg n, Int.ofNat_lt.2 fits⟩

/-- One of several is read from its name, when their names differ. -/
theorem choice_name {all : List α} {name : α → String} (once : (all.map name).Nodup) {a : α}
    (mem : a ∈ all) :
    (Format.choice (all.map fun a => (name a, a)) : Decoder α) (.string (name a)) = .ok a := by
  have found : (all.map fun a => (name a, a)).lookup (name a) = some a := by
    induction all with
    | nil => cases mem
    | cons first rest ih =>
      obtain ⟨other, once⟩ := List.nodup_cons.1 once
      obtain rfl | mem := List.mem_cons.1 mem
      · simp
      · have different : (name a == name first) = false :=
          beq_false_of_ne fun same => other (same ▸ List.mem_map_of_mem mem)
        rw [List.map_cons, List.lookup_cons, different]
        exact ih once mem
  change named _ _ = _
  rw [named, found]

theorem optional_eq_ok {decoder : Decoder α} {value : Json} {a : α} (present : value ≠ .null)
    (read : decoder value = .ok a) :
    (Format.optional decoder : Decoder (Option α)) value = .ok (some a) := by
  change optional decoder value = _
  rw [optional, read]
  · rfl
  · exact present

/-! ## Members -/

/-- What a member sets in a record. A member without slot sets nothing. -/
def entering (slots : List (Slot Decoder σ)) (entry : String × Json) : Except Mismatch (σ → σ) :=
  match slots.find? (·.name = entry.1) with
  | none => .ok id
  | some slot => slot.read entry.2

theorem entering_slot {slots : List (Slot Decoder σ)} {key : String} {absence : Absence}
    {decoder : Decoder α} {set : α → σ → σ} {value : Json} {a : α}
    (found : slots.find? (·.name = key) = some (slot key absence decoder set))
    (read : decoder value = .ok a) : entering slots (key, value) = .ok (set a) := by
  rw [entering, found]
  exact map_eq_ok_iff.2 ⟨a, read, rfl⟩

theorem members_cons_eq_ok_iff {slots : List (Slot Decoder σ)} {entry : String × Json}
    {rest : List (String × Json)} {record result : σ} :
    members slots (entry :: rest) record = .ok result ↔
      ∃ set, entering slots entry = .ok set ∧ members slots rest (set record) = .ok result := by
  rw [members, entering]
  cases slots.find? (·.name = entry.1) with
  | none => simp
  | some slot => exact Except.bind_eq_ok_iff

theorem members_append_eq_ok {slots : List (Slot Decoder σ)} {entries rest : List (String × Json)}
    {record middle result : σ} (read : members slots entries record = .ok middle)
    (read' : members slots rest middle = .ok result) :
    members slots (entries ++ rest) record = .ok result := by
  induction entries generalizing record with
  | nil =>
    cases read
    exact read'
  | cons entry entries ih =>
    obtain ⟨set, entered, tail⟩ := members_cons_eq_ok_iff.1 read
    exact members_cons_eq_ok_iff.2 ⟨set, entered, ih tail⟩

/-- The members can be read, whatever the record is, and come to a change of it. -/
def Sets (slots : List (Slot Decoder σ)) (entries : List (String × Json)) (set : σ → σ) : Prop :=
  ∀ record, members slots entries record = .ok (set record)

namespace Sets

variable {slots : List (Slot Decoder σ)} {rest : List (String × Json)} {f : σ → σ}

theorem nil : Sets slots [] id := fun _ => rfl

/-- A member that can be read sets the part of its slot, before the rest is read. -/
theorem cons {key : String} {value : Json} {absence : Absence} {decoder : Decoder α}
    {set : α → σ → σ} {a : α}
    (found : slots.find? (·.name = key) = some (slot key absence decoder set))
    (read : decoder value = .ok a) (h : Sets slots rest f) :
    Sets slots ((key, value) :: rest) (f ∘ set a) := fun record =>
  members_cons_eq_ok_iff.2 ⟨set a, entering_slot found read, h (set a record)⟩

theorem append {entries : List (String × Json)} {g : σ → σ} (h : Sets slots entries f)
    (h' : Sets slots rest g) : Sets slots (entries ++ rest) (g ∘ f) :=
  fun record => members_append_eq_ok (h record) (h' (f record))

/-- A member that may be left out sets its part when it is there. -/
theorem optionalMember {key : String} {absence : Absence} {decoder : Decoder (Option α)}
    {set : Option α → σ → σ} {form : α → Json} {part : Option α}
    (found : slots.find? (·.name = key) = some (slot key absence decoder set))
    (read : ∀ a, part = some a → decoder (form a) = .ok (some a)) :
    Sets slots (DocTree.optionalMember key form part) (part.elim id fun a => set (some a)) := by
  cases part with
  | none => exact nil
  | some a => exact nil.cons found (read a rfl)

end Sets

theorem entering_comm {slots : List (Slot Decoder σ)} (apart : slots.Pairwise Slot.Apart)
    {entry other : String × Json} (different : entry.1 ≠ other.1) {f g : σ → σ}
    (read : entering slots entry = .ok f) (read' : entering slots other = .ok g) (record : σ) :
    f (g record) = g (f record) := by
  unfold entering at read read'
  split at read
  · cases read
    rfl
  · rename_i slot found
    split at read'
    · cases read'
      rfl
    · rename_i slot' found'
      have name := List.find?_some found
      have name' := List.find?_some found'
      have distinct : slot ≠ slot' := by
        rintro rfl
        exact different ((of_decide_eq_true name).symm.trans (of_decide_eq_true name'))
      exact apart.forall (List.mem_of_find?_eq_some found) (List.mem_of_find?_eq_some found')
        distinct _ _ _ _ read read' record

/-- The order of members with different keys does not matter. -/
theorem members_perm {slots : List (Slot Decoder σ)} (apart : slots.Pairwise Slot.Apart)
    {entries other : List (String × Json)} (once : (entries.map (·.1)).Nodup)
    (perm : entries.Perm other) {record result : σ}
    (read : members slots entries record = .ok result) :
    members slots other record = .ok result := by
  induction perm generalizing record with
  | nil => exact read
  | cons entry _ ih =>
    obtain ⟨set, entered, rest⟩ := members_cons_eq_ok_iff.1 read
    exact members_cons_eq_ok_iff.2 ⟨set, entered, ih (List.nodup_cons.1 once).2 rest⟩
  | swap first second rest =>
    have different : second.1 ≠ first.1 := fun same =>
      (List.nodup_cons.1 once).1 (List.mem_cons.2 (.inl same))
    obtain ⟨f, read, tail⟩ := members_cons_eq_ok_iff.1 read
    obtain ⟨g, read', tail⟩ := members_cons_eq_ok_iff.1 tail
    refine members_cons_eq_ok_iff.2 ⟨g, read', members_cons_eq_ok_iff.2 ⟨f, read, ?_⟩⟩
    rwa [entering_comm apart different read read']
  | trans perm _ ih ih' =>
    exact ih' ((perm.map _).nodup_iff.1 once) (ih once read)

/-! ## Records and tables -/

theorem record_object_eq_ok_iff {name : String} {slots : List (Slot Decoder σ)} {blank result : σ}
    {entries : List (String × Json)} :
    (Format.record name slots blank : Decoder σ) (.object entries) = .ok result ↔
      members slots entries blank = .ok result ∧
        Slot.missing? slots (entries.map (·.1)) = none := by
  change record name slots blank (.object entries) = .ok result ↔ _
  rw [record, Except.bind_eq_ok_iff]
  cases Slot.missing? slots (entries.map (·.1)) <;> simp [pure, Except.pure]

/-- A record whose members can be read, and of whose slots none is left out that has to be there. -/
theorem Sets.record_eq_ok {name : String} {slots : List (Slot Decoder σ)} {blank result : σ}
    {entries : List (String × Json)} {set : σ → σ} (h : Sets slots entries set)
    (whole : Slot.missing? slots (entries.map (·.1)) = none) (comes : set blank = result) :
    (Format.record name slots blank : Decoder σ) (.object entries) = .ok result :=
  record_object_eq_ok_iff.2 ⟨comes ▸ h blank, whole⟩

/-- The order of the members of a record does not matter. -/
theorem record_perm {name : String} {slots : List (Slot Decoder σ)}
    (apart : slots.Pairwise Slot.Apart) {blank result : σ} {entries other : List (String × Json)}
    (once : (entries.map (·.1)).Nodup) (perm : entries.Perm other)
    (read : (Format.record name slots blank : Decoder σ) (.object entries) = .ok result) :
    (Format.record name slots blank : Decoder σ) (.object other) = .ok result := by
  obtain ⟨read, whole⟩ := record_object_eq_ok_iff.1 read
  refine record_object_eq_ok_iff.2 ⟨members_perm apart once perm read, ?_⟩
  rw [← Slot.missing?_congr fun name => (perm.map (·.1)).mem_iff, whole]

/-- The members of a record may be collected into a map before the record is read. -/
theorem record_collected {name : String} {slots : List (Slot Decoder σ)}
    (apart : slots.Pairwise Slot.Apart) {blank result : σ} {entries : List (String × Json)}
    (once : (entries.map (·.1)).Nodup)
    (read : (Format.record name slots blank : Decoder σ) (.object entries) = .ok result) :
    (Format.record name slots blank : Decoder σ) (.ofMap (.ofList entries)) = .ok result :=
  record_perm apart once (KeyMap.entries_ofList_perm once).symm read

/-- The entries of a map are read back as the map. -/
theorem table_eq_ok {decoder : Decoder α} {map : KeyMap α} (form : α → Json)
    (reads : ∀ entry ∈ map.entries, decoder (form entry.2) = .ok entry.2) :
    (Format.table decoder : Decoder (KeyMap α))
      (.object (map.entries.map fun entry => (entry.1, form entry.2))) = .ok map := by
  change table decoder _ = _
  rw [table, Except.mapM_map_eq_ok]
  · exact congrArg Except.ok (KeyMap.ofList_entries map)
  · intro entry mem
    simp only [reads entry mem]
    rfl

end Decoder
end DocTree
