import DocTree.KeyMap

/-!
# Maps and results

What the operations on maps do to `get?`, so that maps are compared key by key, and how a
computation that may fail is taken apart.

## Main statements

* `Except.bind_eq_ok_iff` — a chain of steps succeeds when each of them does.
* `Except.mapM_eq_ok_iff`, `Except.mapM_eq_error_iff` — a step for each item of a list.
* `ite_some_eq_none_iff` — a chain of tests finds nothing when none of them does.
* `KeyMap.get?_filter` — a map cut down by a test on its keys.
* `KeyMap.get?_insertAll` — entering all entries of one map into another.
* `KeyMap.get?_ofList`, `KeyMap.get?_ofList_eq_some_iff` — the last pair of a key decides.
* `KeyMap.mem_of_mem_ofList`, `KeyMap.get?_ofList_of_mem` — the map that pairs enter in turn.
-/

namespace DocTree

/-! ## Results -/

theorem Except.bind_eq_ok_iff {ε α β : Type} {x : Except ε α} {f : α → Except ε β} {b : β} :
    x >>= f = .ok b ↔ ∃ a, x = .ok a ∧ f a = .ok b := by
  cases x <;> simp [bind, Except.bind]

theorem Except.mapError_eq_ok_iff {ε δ α : Type} {x : Except ε α} {f : ε → δ} {a : α} :
    x.mapError f = .ok a ↔ x = .ok a := by
  constructor
  · intro h
    cases x with
    | ok value =>
      cases h
      rfl
    | error e => cases h
  · rintro rfl
    rfl

theorem Except.exists_eq_ok_iff {ε α : Type} {x : Except ε α} :
    (∃ a, x = .ok a) ↔ ∀ e, x ≠ .error e := by
  cases x <;> simp

/-- Steps for the items of a list succeed when each of them does. -/
theorem Except.mapM_eq_ok_iff {ε α β : Type} {step : α → Except ε β} {items : List α}
    {results : List β} : items.mapM step = .ok results ↔ items.map step = results.map .ok := by
  induction items generalizing results with
  | nil => cases results <;> simp [pure, Except.pure]
  | cons item items ih =>
    rw [List.mapM_cons, List.map_cons, bind_eq_ok_iff]
    constructor
    · rintro ⟨result, done, rest⟩
      obtain ⟨results, doneAll, rest⟩ := bind_eq_ok_iff.1 rest
      cases rest
      rw [List.map_cons, done, ih.1 doneAll]
    · intro done
      obtain ⟨result, results, rfl, first, rest⟩ := List.map_eq_cons_iff.1 done.symm
      exact ⟨result, first.symm, bind_eq_ok_iff.2 ⟨results, ih.2 rest.symm, rfl⟩⟩

theorem Except.mapM_of_error {ε α β : Type} {step : α → Except ε β} {earlier : List α} {item : α}
    {e : ε} (before : ∀ other ∈ earlier, ∃ result, step other = .ok result)
    (failed : step item = .error e) (later : List α) :
    (earlier ++ item :: later).mapM step = .error e := by
  induction earlier with
  | nil =>
    rw [List.nil_append, List.mapM_cons, failed]
    rfl
  | cons first earlier ih =>
    obtain ⟨result, done⟩ := before first List.mem_cons_self
    rw [List.cons_append, List.mapM_cons, done,
      ih fun other mem => before other (List.mem_cons_of_mem _ mem)]
    rfl

/-- Steps for the items of a list fail when one of them does, as the first of these does. -/
theorem Except.mapM_eq_error_iff {ε α β : Type} {step : α → Except ε β} {items : List α} {e : ε} :
    items.mapM step = .error e ↔ ∃ earlier item later, items = earlier ++ item :: later ∧
      (∀ other ∈ earlier, ∃ result, step other = .ok result) ∧ step item = .error e := by
  constructor
  · intro failed
    induction items with
    | nil => cases failed
    | cons item items ih =>
      rw [List.mapM_cons] at failed
      cases outcome : step item with
      | error e' =>
        rw [outcome] at failed
        cases failed
        exact ⟨[], item, items, rfl, by simp, outcome⟩
      | ok result =>
        rw [outcome] at failed
        cases rest : items.mapM step with
        | ok results =>
          rw [rest] at failed
          cases failed
        | error e' =>
          rw [rest] at failed
          cases failed
          obtain ⟨earlier, found, later, rfl, before, failed⟩ := ih rest
          exact ⟨item :: earlier, found, later, rfl,
            List.forall_mem_cons.2 ⟨⟨result, outcome⟩, before⟩, failed⟩
  · rintro ⟨earlier, item, later, rfl, before, failed⟩
    exact mapM_of_error before failed later

theorem Except.exists_mapM_eq_ok_iff {ε α β : Type} {step : α → Except ε β} {items : List α} :
    (∃ results, items.mapM step = .ok results) ↔
      ∀ item ∈ items, ∃ result, step item = .ok result := by
  constructor
  · rintro ⟨results, done⟩ item mem
    have there : step item ∈ results.map .ok := mapM_eq_ok_iff.1 done ▸ List.mem_map_of_mem mem
    obtain ⟨result, -, same⟩ := List.mem_map.1 there
    exact ⟨result, same.symm⟩
  · intro fine
    refine exists_eq_ok_iff.2 fun e failed => ?_
    obtain ⟨earlier, item, later, rfl, -, failed⟩ := mapM_eq_error_iff.1 failed
    obtain ⟨result, done⟩ := fine item (by simp)
    rw [failed] at done
    cases done

/-- A chain of tests finds nothing when none of them does. -/
theorem ite_some_eq_none_iff {α : Type} {p : Prop} [Decidable p] {a : α} {x : Option α} :
    (if p then some a else x) = none ↔ ¬p ∧ x = none := by
  by_cases h : p <;> simp [h]

namespace KeyMap

universe u

variable {α : Type u}

/-! ## Keys and entries -/

theorem contains_iff {m : KeyMap α} {key : String} :
    m.contains key = true ↔ ∃ value, m.get? key = some value := by
  simp [contains, Option.isSome_iff_exists]

theorem contains_eq_false_iff {m : KeyMap α} {key : String} :
    m.contains key = false ↔ m.get? key = none := by
  simp [contains]

theorem mem_keys_iff {m : KeyMap α} {key : String} :
    key ∈ m.keys ↔ ∃ value, m.get? key = some value := by
  simp only [keys, List.mem_map, Prod.exists, exists_and_right, exists_eq_right]
  exact exists_congr fun value => mem_entries_iff

theorem mem_values_iff {m : KeyMap α} {value : α} :
    value ∈ m.values ↔ ∃ key, m.get? key = some value := by
  simp only [values, List.mem_map, Prod.exists, exists_eq_right]
  exact exists_congr fun key => mem_entries_iff

theorem keys_nodup (m : KeyMap α) : m.keys.Nodup :=
  List.pairwise_map.2 <| m.ordered.imp fun {a b} (less : a.1 < b.1) (same : a.1 = b.1) =>
    String.lt_irrefl b.1 (same ▸ less)

/-- Maps that have values under the same keys list the same keys. -/
theorem keys_congr {m n : KeyMap α} (h : ∀ key, m.contains key = n.contains key) :
    m.keys = n.keys := by
  have mem : ∀ key, key ∈ m.keys ↔ key ∈ n.keys := fun key => by
    rw [mem_keys_iff, mem_keys_iff, ← contains_iff, ← contains_iff, h]
  have ordered : ∀ l : KeyMap α, l.keys.Pairwise (· < ·) := fun l => List.pairwise_map.2 l.ordered
  exact ((List.perm_ext_iff_of_nodup m.keys_nodup n.keys_nodup).2 mem).eq_of_pairwise
    (fun _ _ _ _ less greater => absurd greater (String.lt_asymm less)) (ordered m) (ordered n)

/-! ## Cutting maps down -/

theorem get?_filter (m : KeyMap α) (keep : String → Bool) (key : String) :
    (m.filter fun k _ => keep k).get? key = if keep key then m.get? key else none := by
  obtain ⟨entries, ordered⟩ := m
  simp only [get?, filter]
  clear ordered
  induction entries with
  | nil => simp
  | cons first rest ih => obtain ⟨f, v⟩ := first; grind

theorem erase_of_absent {m : KeyMap α} {key : String} (absent : m.get? key = none) :
    m.erase key = m := by
  apply ext_get?
  intro k
  rw [get?_erase]
  split
  · rename_i same
    rw [same, absent]
  · rfl

theorem insert_of_get? {m : KeyMap α} {key : String} {value : α}
    (present : m.get? key = some value) : m.insert key value = m := by
  apply ext_get?
  intro k
  rw [get?_insert]
  split
  · rename_i same
    rw [same, present]
  · rfl

/-! ## Entering many pairs -/

/-- Enters pairs into a map in turn. -/
def insertAll (m : KeyMap α) (pairs : List (String × α)) : KeyMap α :=
  pairs.foldl (fun m entry => m.insert entry.1 entry.2) m

/-- The last pair of a key decides. -/
theorem get?_insertAll_eq (m : KeyMap α) (pairs : List (String × α)) (key : String) :
    (m.insertAll pairs).get? key = (pairs.reverse.lookup key).or (m.get? key) := by
  induction pairs generalizing m with
  | nil => rfl
  | cons first rest ih =>
    obtain ⟨f, v⟩ := first
    have step : (m.insertAll ((f, v) :: rest)).get? key =
        ((m.insert f v).insertAll rest).get? key := rfl
    rw [step, ih, List.reverse_cons, List.lookup_append, Option.or_assoc, get?_insert]
    refine congrArg _ ?_
    by_cases same : key = f
    · rw [if_pos same, same, List.lookup_cons_self, Option.some_or]
    · rw [if_neg same, List.lookup_cons, beq_eq_false_iff_ne.2 same]
      rfl

theorem get?_insertAll_of_notMem {m : KeyMap α} {pairs : List (String × α)} {key : String}
    (h : ∀ value, (key, value) ∉ pairs) : (m.insertAll pairs).get? key = m.get? key := by
  have absent : pairs.reverse.lookup key = none := by
    refine List.lookup_eq_none_iff.2 fun pair mem => bne_iff_ne.2 ?_
    rintro rfl
    exact h pair.2 (List.mem_reverse.1 mem)
  rw [get?_insertAll_eq, absent, Option.none_or]

/-- When only one value is entered under a key, it is found there. -/
theorem get?_insertAll_of_mem {m : KeyMap α} {pairs : List (String × α)} {key : String} {value : α}
    (mem : (key, value) ∈ pairs) (only : ∀ other, (key, other) ∈ pairs → other = value) :
    (m.insertAll pairs).get? key = some value := by
  rw [get?_insertAll_eq]
  cases found : pairs.reverse.lookup key with
  | none =>
    have apart := List.lookup_eq_none_iff.1 found _ (List.mem_reverse.2 mem)
    exact absurd rfl (bne_iff_ne.1 apart)
  | some other =>
    obtain ⟨before, after, split, -⟩ := List.lookup_eq_some_iff.1 found
    have there : (key, other) ∈ pairs.reverse := split ▸ List.mem_append_right _ List.mem_cons_self
    rw [only other (List.mem_reverse.1 there), Option.some_or]

/-- Entries of a map that are entered into another prevail there. -/
theorem get?_insertAll (m n : KeyMap α) (key : String) :
    (m.insertAll n.entries).get? key = (n.get? key).or (m.get? key) := by
  cases h : n.get? key with
  | none =>
    apply get?_insertAll_of_notMem
    intro value mem
    simp [mem_entries_iff.1 mem] at h
  | some value =>
    apply get?_insertAll_of_mem (mem_entries_iff.2 h)
    intro other mem
    simpa [h] using (mem_entries_iff.1 mem).symm

theorem mem_of_mem_insertAll {m : KeyMap α} {pairs : List (String × α)} {entry : String × α}
    (h : entry ∈ (m.insertAll pairs).entries) : entry ∈ pairs ∨ entry ∈ m.entries := by
  induction pairs generalizing m with
  | nil => exact .inr h
  | cons first rest ih =>
    rcases ih h with later | earlier
    · exact .inl (List.mem_cons_of_mem _ later)
    · have found : (m.insert first.1 first.2).get? entry.1 = some entry.2 :=
        mem_entries_iff.1 earlier
      rw [get?_insert] at found
      split at found
      · rename_i same
        have here : entry = first := Prod.ext same (Option.some.inj found).symm
        exact .inl (here ▸ List.mem_cons_self)
      · exact .inr (mem_entries_iff.2 found)

/-! ## Maps of lists -/

/-- To enter pairs into the map without entries is to read them as a map. -/
theorem ofList_eq_insertAll (pairs : List (String × α)) : ofList pairs = empty.insertAll pairs := by
  unfold ofList
  split
  · rename_i sorted
    have entered := get?_insertAll empty ⟨pairs, ordered_of_inOrder sorted⟩
    refine ext_get? fun key => ((entered key).trans ?_).symm
    rw [get?_empty, Option.or_none]
  · rfl

theorem get?_ofList (pairs : List (String × α)) (key : String) :
    (ofList pairs).get? key = pairs.reverse.lookup key := by
  rw [ofList_eq_insertAll, get?_insertAll_eq, get?_empty, Option.or_none]

/-- The value of a key is that of the last pair of the key. -/
theorem get?_ofList_eq_some_iff {pairs : List (String × α)} {key : String} {value : α} :
    (ofList pairs).get? key = some value ↔ ∃ earlier later,
      pairs = earlier ++ (key, value) :: later ∧ ∀ other ∈ later, other.1 ≠ key := by
  rw [get?_ofList, List.lookup_eq_some_iff]
  constructor
  · rintro ⟨later, earlier, reversed, apart⟩
    refine ⟨earlier.reverse, later.reverse, ?_, fun other mem => ?_⟩
    · rw [← List.reverse_reverse pairs, reversed]
      simp
    · exact (bne_iff_ne.1 (apart other (List.mem_reverse.1 mem))).symm
  · rintro ⟨earlier, later, rfl, apart⟩
    exact ⟨later.reverse, earlier.reverse, by simp, fun other mem =>
      bne_iff_ne.2 (apart other (List.mem_reverse.1 mem)).symm⟩

theorem mem_of_mem_ofList {pairs : List (String × α)} {entry : String × α}
    (h : entry ∈ (ofList pairs).entries) : entry ∈ pairs := by
  rw [ofList_eq_insertAll] at h
  exact (mem_of_mem_insertAll h).resolve_right List.not_mem_nil

/-- When only one value is paired with a key, it is found there. -/
theorem get?_ofList_of_mem {pairs : List (String × α)} {key : String} {value : α}
    (mem : (key, value) ∈ pairs) (only : ∀ other, (key, other) ∈ pairs → other = value) :
    (ofList pairs).get? key = some value := by
  rw [ofList_eq_insertAll]
  exact get?_insertAll_of_mem mem only

theorem entries_ofList {pairs : List (String × α)} (h : inOrder pairs = true) :
    (ofList pairs).entries = pairs := by
  rw [ofList, dif_pos h]

end KeyMap
end DocTree
