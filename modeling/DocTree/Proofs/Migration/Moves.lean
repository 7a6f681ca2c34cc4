import DocTree.Proofs.Migration.Passes

/-!
# What promotion moves

A promotion that succeeds gives absent fields the values of their data keys and takes these keys
away, in the nodes of one type, and changes nothing else.

## Main definitions

* `Mapping.moved?` — the value that `data` holds for a field.
* `Mapping.Moved` — the head of a node before and after a promotion.

## Main statements

* `Mapping.Moved.of_promote` — what a promotion makes of one head.
* `Promotion.promote_heads` — what it makes of the heads of a tree.
-/

namespace DocTree

namespace Mapping

variable {pairs : List (String × String)} {head middle next : Head}

/-! ## One entry -/

/-- The value that `data` holds for a field, under the first key of the field that it has. -/
def moved? (pairs : List (String × String)) (data : Option (KeyMap Json)) (field : String) :
    Option Json :=
  pairs.findSome? fun (key, target) => if target = field then data.bind (·.get? key) else none

/-- What is left of `data` when keys are taken away. -/
def rest (pairs : List (String × String)) (data : Option (KeyMap Json)) : Option (KeyMap Json) :=
  data.map fun map => map.filter fun key _ => !pairs.any (·.1 == key)

/-- The second head is the first one after absent fields have been given the values that `data`
holds for them. -/
structure Moved (pairs : List (String × String)) (head next : Head) : Prop where
  typeName : next.typeName = head.typeName
  fields : ∀ field,
    next.fields.get? field = (head.fields.get? field).or (moved? pairs head.data field)
  data : next.data = rest pairs head.data

theorem get?_rest (data : Option (KeyMap Json)) (key : String) :
    (rest pairs data).bind (·.get? key) =
      if pairs.any (·.1 == key) then none else data.bind (·.get? key) := by
  cases data with
  | none => simp [rest]
  | some map => cases h : pairs.any (·.1 == key) <;> simp [rest, KeyMap.get?_filter, h]

theorem isSome_rest (data : Option (KeyMap Json)) : (rest pairs data).isSome = data.isSome :=
  Option.isSome_map

/-- Two `data` with the same values are the same, when neither or both are present. -/
theorem data_ext {x y : Option (KeyMap Json)} (present : x.isSome = y.isSome)
    (values : ∀ key, x.bind (·.get? key) = y.bind (·.get? key)) : x = y := by
  cases x <;> cases y
  · rfl
  · cases present
  · cases present
  · exact congrArg some (KeyMap.ext_get? values)

theorem Moved.nil (head : Head) : Moved [] head head where
  typeName := rfl
  fields field := by simp [moved?]
  data := data_ext (isSome_rest _).symm fun key => by simp [get?_rest]

theorem moved?_rest {key field : String} {pairs : List (String × String)}
    (other : ∀ pair ∈ pairs, pair.1 ≠ key) (data : Option (KeyMap Json)) (target : String) :
    moved? pairs (rest [(key, field)] data) target = moved? pairs data target := by
  induction pairs with
  | nil => rfl
  | cons first pairs ih =>
    obtain ⟨here, later⟩ := List.forall_mem_cons.1 other
    have same : (rest [(key, field)] data).bind (·.get? first.1) = data.bind (·.get? first.1) := by
      simp [get?_rest, Ne.symm here]
    have below := ih later
    unfold moved? at below ⊢
    simp only [List.findSome?_cons, same, below]

/-- To move entries is to move the first one, and then the others. -/
theorem Moved.cons {key field : String} (other : ∀ pair ∈ pairs, pair.1 ≠ key)
    (first : Moved [(key, field)] head middle) (later : Moved pairs middle next) :
    Moved ((key, field) :: pairs) head next where
  typeName := later.typeName.trans first.typeName
  fields target := by
    rw [later.fields, first.fields, first.data, moved?_rest other, Option.or_assoc]
    refine congrArg _ ?_
    simp only [moved?, List.findSome?_cons, List.findSome?_nil]
    cases (if field = target then head.data.bind (·.get? key) else none) <;> rfl
  data := by
    rw [later.data, first.data]
    refine data_ext (by simp only [isSome_rest]) ?_
    intro other
    cases here : key == other <;> cases there : pairs.any (·.1 == other) <;>
      simp [get?_rest, here, there]

theorem Moved.of_promoteEntry {key field : String}
    (h : promoteEntry head key field = .ok next) : Moved [(key, field)] head next := by
  unfold promoteEntry at h
  split at h
  · rename_i absent
    cases h
    refine ⟨rfl, fun target => by simp [moved?, absent], data_ext (isSome_rest _).symm ?_⟩
    intro other
    by_cases same : key = other
    · subst same
      simp [get?_rest, absent]
    · simp [get?_rest, same]
  · rename_i value found
    have data : head.data.map (KeyMap.erase · key) = rest [(key, field)] head.data := by
      refine data_ext (Option.isSome_map.trans (isSome_rest _).symm) ?_
      intro other
      cases head.data with
      | none => rfl
      | some map =>
        by_cases same : other = key <;> simp [get?_rest, KeyMap.get?_erase, same, Ne.symm]
    dsimp only at h
    split at h
    · rename_i absent
      cases h
      refine ⟨rfl, ?_, data⟩
      intro target
      simp only [KeyMap.get?_insert, moved?]
      grind
    · rename_i existing present
      split at h
      · cases h
        refine ⟨rfl, ?_, data⟩
        intro target
        simp only [moved?]
        grind
      · cases h

theorem moved?_eq_some {data : Option (KeyMap Json)} {field : String} {value : Json}
    (h : moved? pairs data field = some value) :
    ∃ key, (key, field) ∈ pairs ∧ data.bind (·.get? key) = some value := by
  obtain ⟨⟨key, target⟩, mem, found⟩ := List.exists_of_findSome?_eq_some h
  dsimp only at found
  split at found
  · rename_i same
    exact ⟨key, same ▸ mem, found⟩
  · cases found

theorem Moved.unshadowed (moved : Moved pairs head next)
    (notBase : ∀ pair ∈ pairs, isBaseKey pair.2 = false) (h : head.Unshadowed) :
    next.Unshadowed := by
  intro field base
  rw [moved.fields, h field base, Option.none_or]
  apply Option.eq_none_iff_forall_ne_some.2
  intro value found
  obtain ⟨key, mem, -⟩ := moved?_eq_some found
  exact Bool.false_ne_true ((notBase _ mem).symm.trans base)

theorem Moved.canonical (moved : Moved pairs head next) (h : head.Canonical) : next.Canonical where
  fields field value found := by
    rw [moved.fields] at found
    rcases Option.or_eq_some_iff.1 found with present | ⟨-, found⟩
    · exact h.fields field value present
    · obtain ⟨key, -, found⟩ := moved?_eq_some found
      obtain ⟨data, whole, found⟩ := Option.bind_eq_some_iff.1 found
      exact Json.canonical_ofMap_iff.1 (h.data data whole) key value found
  data data found := by
    rw [moved.data] at found
    obtain ⟨whole, same, rfl⟩ := Option.map_eq_some_iff.1 found
    apply Json.canonical_ofMap_iff.2
    intro key value left
    rw [KeyMap.get?_filter] at left
    split at left
    · exact Json.canonical_ofMap_iff.1 (h.data whole same) key value left
    · cases left

/-! ## One head -/

theorem Moved.of_foldlM (distinct : pairs.Pairwise fun a b => a.1 ≠ b.1)
    (h : pairs.foldlM (fun head pair => promoteEntry head pair.1 pair.2) head = .ok next) :
    Moved pairs head next :=
  foldlM_induction .nil .of_promoteEntry .cons distinct h

/-- Where `data` has no mapped key, nothing is moved. -/
theorem foldlM_promoteEntry_of_absent {mapping : Mapping} (absent :
      ¬mapping.pairs.any (fun (dataKey, _) => head.data.any (·.contains dataKey)) = true) :
    mapping.pairs.foldlM (fun head pair => promoteEntry head pair.1 pair.2) head = .ok head := by
  refine foldlM_of_fixed fun pair mem => ?_
  have nothing : head.data.bind (·.get? pair.1) = none := by
    cases data : head.data with
    | none => rfl
    | some map =>
      simp only [data, Option.any_some, List.any_eq_true, not_exists, not_and,
        Bool.not_eq_true] at absent
      exact KeyMap.contains_eq_false_iff.1 (absent pair mem)
  simp [promoteEntry, nothing]

/-- What a promotion makes of one head. When there is nothing to move it is left as it is. -/
theorem Moved.of_promote {mapping : Mapping} {moved : Option Head}
    (h : mapping.promote head = .ok moved) : Moved mapping.pairs head (moved.getD head) :=
  .of_foldlM mapping.pairs_distinct (getD_of_guarded h foldlM_promoteEntry_of_absent)

end Mapping

/-! ## Whole trees -/

namespace Promotion

variable {promotion : Promotion}

theorem typeName_after (promotion : Promotion) (head : Head) :
    (promotion.after promotion.mapping.promote head).typeName = head.typeName := by
  unfold after
  split
  · cases result : promotion.mapping.promote head with
    | error clash => rfl
    | ok moved => exact (Mapping.Moved.of_promote result).typeName
  · rfl

theorem moved_after {head : Head} (typed : head.typeName = promotion.typeName)
    (ok : ∃ moved, promotion.mapping.promote head = .ok moved) :
    Mapping.Moved promotion.mapping.pairs head
      (promotion.after promotion.mapping.promote head) := by
  obtain ⟨moved, ok⟩ := ok
  rw [after, if_pos typed, ok]
  exact .of_promote ok

/-- What a promotion makes of all heads of a tree. -/
theorem promote_heads {P Q : Head → Prop} {tree promoted : Node}
    (h : (promotion.promote tree).result = .ok promoted)
    (others : ∀ head, head.typeName ≠ promotion.typeName → P head → Q head)
    (moves : ∀ head next, head.typeName = promotion.typeName →
      Mapping.Moved promotion.mapping.pairs head next → P head → Q next)
    (all : ∀ places found, tree.at? places = some found → P found.head) :
    ∀ places found, promoted.at? places = some found → Q found.head := by
  intro places found there
  rw [(run_eq_ok h).1, Node.at?_mapHeads] at there
  obtain ⟨node, here, rfl⟩ := Option.map_eq_some_iff.1 there
  rw [Node.head_mapHeads]
  by_cases typed : node.typeName = promotion.typeName
  · have ok := (run_eq_ok h).2.1 places node here typed
    exact moves _ _ typed (moved_after typed ok) (all places node here)
  · rw [after_of_ne typed]
    exact others _ typed (all places node here)

/-- A promotion keeps a tree tidy. -/
theorem tidy_promote {tree promoted : Node} (tidy : tree.Tidy)
    (h : (promotion.promote tree).result = .ok promoted) : promoted.Tidy := by
  obtain ⟨rfl, goes, notBase⟩ := run_eq_ok h
  refine tidy.mapHeads fun places found there neat => ?_
  by_cases typed : found.typeName = promotion.typeName
  · have moved := moved_after typed (goes places found there typed)
    exact ⟨moved.unshadowed (fun pair mem => notBase _ (List.mem_map_of_mem mem)) neat.unshadowed,
      moved.canonical neat.canonical⟩
  · rw [after_of_ne typed]
    exact ⟨neat.unshadowed, neat.canonical⟩

end Promotion
end DocTree
