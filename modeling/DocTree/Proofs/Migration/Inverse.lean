import DocTree.Proofs.Migration.Gathering
import DocTree.Proofs.Migration.Returning
import DocTree.Proofs.Node.Equality
import DocTree.Proofs.Validation.Acceptance

/-!
# Demotion after promotion

A promotion leaves no mapped key in `data`, so a demotion can follow it. It leads back to the tree
when it puts each value where the promotion found it, and takes no other field along.

## Main definitions

* `Mapping.Restorable`, `Promotion.Restorable` — heads, and trees, that a demotion restores.

## Main statements

* `Mapping.Restorable.restored` — a restorable head is restored.
* `Mapping.restorable_of_keys` — a head that has its fields and keys back was restorable.
* `Promotion.demote_promote_iff` — which trees are restored.
-/

namespace DocTree

namespace Mapping

variable {mapping : Mapping} {head middle next : Head}

/-- A head has none of the mapped fields, and each mapped key in its `data` is the least one of its
field. -/
structure Restorable (mapping : Mapping) (head : Head) : Prop where
  vacant : ∀ key field, mapping.get? key = some field → head.fields.get? field = none
  least : ∀ key field, mapping.get? key = some field →
    (head.data.bind (·.get? key)).isSome = true →
      ∀ other, mapping.get? other = some field → ¬other < key

/-! ## One head -/

theorem Restorable.keyOf?_eq (h : mapping.Restorable head) {key field : String}
    (mapped : mapping.get? key = some field)
    (present : (head.data.bind (·.get? key)).isSome = true) :
    keyOf? mapping.pairs field = some key :=
  keyOf?_pairs_eq_some_iff.2 ⟨mapped, h.least key field mapped present⟩

/-- A field receives the value of its first key, if any. -/
theorem Restorable.moved?_eq (h : mapping.Restorable head) {key field : String}
    (first : keyOf? mapping.pairs field = some key) :
    moved? mapping.pairs head.data field = head.data.bind (·.get? key) := by
  cases found : moved? mapping.pairs head.data field with
  | some value =>
    obtain ⟨source, mem, present⟩ := moved?_eq_some found
    have same := h.keyOf?_eq (mem_pairs_iff.1 mem) (Option.isSome_of_eq_some present)
    rw [first] at same
    cases same
    exact present.symm
  | none =>
    have mem := mem_pairs_iff.2 (keyOf?_pairs_eq_some_iff.1 first).1
    have absent := List.findSome?_eq_none_iff.1 found _ mem
    exact (by simpa using absent : head.data.bind (·.get? key) = none).symm

/-- After a demotion `data` has at a mapped key what the promotion gave its field, where the key is
the first one of the field. -/
theorem get?_data_demoted (moved : Moved mapping.pairs head middle)
    (demoted : Demoted mapping.pairs middle next) (key : String) :
    next.data.bind (·.get? key) =
      match mapping.get? key with
      | none => head.data.bind (·.get? key)
      | some field =>
        if keyOf? mapping.pairs field = some key then middle.fields.get? field else none := by
  have returned : returned? mapping.pairs middle.fields key =
      (mapping.get? key).bind fun field =>
        if keyOf? mapping.pairs field = some key then middle.fields.get? field else none := rfl
  rw [demoted.data, moved.data, get?_rest, any_key_pairs, returned]
  cases mapping.get? key <;> simp

/-- A restorable head is restored. -/
theorem Restorable.restored (h : mapping.Restorable head)
    (moved : Moved mapping.pairs head middle) (demoted : Demoted mapping.pairs middle next) :
    next = head := by
  have received : ∀ {key field}, mapping.get? key = some field →
      middle.fields.get? field = moved? mapping.pairs head.data field := by
    intro key field mapped
    rw [moved.fields, h.vacant key field mapped, Option.none_or]
  have fields : next.fields = head.fields := by
    apply KeyMap.ext_get?
    intro field
    rw [demoted.fields, get?_unmapped, moved.fields]
    split
    · rename_i mapped
      obtain ⟨key, mapped⟩ := any_field_pairs_iff.1 mapped
      exact (h.vacant key field mapped).symm
    · rename_i foreign
      have absent : moved? mapping.pairs head.data field = none := by
        apply Option.eq_none_iff_forall_ne_some.2
        intro value found
        obtain ⟨key, mem, -⟩ := moved?_eq_some found
        exact foreign (any_field_pairs_iff.2 ⟨key, mem_pairs_iff.1 mem⟩)
      rw [absent, Option.or_none]
  have values : ∀ key, next.data.bind (·.get? key) = head.data.bind (·.get? key) := by
    intro key
    rw [get?_data_demoted moved demoted]
    cases mapped : mapping.get? key with
    | none => rfl
    | some field =>
      dsimp only
      split
      · rename_i first
        exact (received mapped).trans (h.moved?_eq first)
      · rename_i other
        have absent := mt (h.keyOf?_eq mapped) other
        exact (Option.not_isSome_iff_eq_none.1 absent).symm
  have present : next.data.isSome = head.data.isSome := by
    rw [demoted.present, moved.data, isSome_rest]
    cases data : head.data with
    | some map => rfl
    | none =>
      have nothing : (mapping.pairs.any fun pair => middle.fields.contains pair.2) = false := by
        refine List.any_eq_false.2 fun pair mem => ?_
        rw [Bool.not_eq_true, KeyMap.contains_eq_false_iff, received (mem_pairs_iff.1 mem), data]
        simp [moved?]
      rw [nothing]
      rfl
  have data := data_ext present values
  have typeName := demoted.typeName.trans moved.typeName
  cases next
  cases head
  simp_all

/-- A head that has its fields and its keys in `data` back was restorable. -/
theorem restorable_of_keys (moved : Moved mapping.pairs head middle)
    (demoted : Demoted mapping.pairs middle next)
    (fields : ∀ field, (next.fields.get? field).isSome = (head.fields.get? field).isSome)
    (data : ∀ key, (next.data.bind (·.get? key)).isSome = (head.data.bind (·.get? key)).isSome) :
    mapping.Restorable head where
  vacant key field mapped := by
    have same := fields field
    rw [demoted.fields, get?_unmapped, if_pos (any_field_pairs_iff.2 ⟨key, mapped⟩)] at same
    simpa using same.symm
  least key field mapped present := by
    have same := data key
    rw [present, get?_data_demoted moved demoted, mapped] at same
    dsimp only at same
    split at same
    · rename_i first
      exact (keyOf?_pairs_eq_some_iff.1 first).2
    · cases same

end Mapping

/-! ## Whole trees -/

namespace Promotion

variable {promotion : Promotion}

/-- All heads of the type are restorable. -/
def Restorable (promotion : Promotion) (tree : Node) : Prop :=
  ∀ places node, tree.at? places = some node → node.typeName = promotion.typeName →
    promotion.mapping.Restorable node.head

/-- After a promotion no mapped key is left in `data`, so that a demotion meets no conflict. -/
theorem goes_demote_promoted {tree : Node}
    (goes : promotion.Goes promotion.mapping.promote tree) :
    promotion.Goes promotion.mapping.demote
      (tree.mapHeads (promotion.after promotion.mapping.promote)) := by
  intro places found there typed
  rw [Node.at?_mapHeads] at there
  obtain ⟨node, here, rfl⟩ := Option.map_eq_some_iff.1 there
  rw [Node.typeName, Node.head_mapHeads, typeName_after] at typed
  rw [Node.head_mapHeads]
  have moved := moved_after typed (goes places node here typed)
  refine Mapping.exists_demote_iff.2 (Mapping.returnable_of_vacant fun key field mapped => ?_)
  simp [moved.data, Mapping.get?_rest, Mapping.any_key_pairs, mapped]

/-- A head of the type is moved, and then moved back. -/
theorem moved_demoted {tree : Node} (goes : promotion.Goes promotion.mapping.promote tree)
    {places : List Nat} {node : Node} (there : tree.at? places = some node)
    (typed : node.typeName = promotion.typeName) :
    let middle := promotion.after promotion.mapping.promote node.head
    Mapping.Moved promotion.mapping.pairs node.head middle ∧
      Mapping.Demoted promotion.mapping.pairs middle
        (promotion.after promotion.mapping.demote middle) := by
  intro middle
  have typed' : middle.typeName = promotion.typeName :=
    (typeName_after promotion node.head).trans typed
  have ok : ∃ moved, promotion.mapping.demote middle = .ok moved := by
    have found := goes_demote_promoted goes places _
      ((Node.at?_mapHeads _ _ _).trans (congrArg (Option.map _) there))
    rw [Node.typeName, Node.head_mapHeads] at found
    exact found typed'
  exact ⟨moved_after typed (goes places node there typed), demoted_after typed' ok⟩

/-- **When demotion is the inverse of promotion.** After a promotion a demotion meets no conflict.
It leads back to the tree, or to an equal one, exactly when no node of the type had a mapped field
and each mapped key in the `data` of such a node was the least key of its field. When no two keys
have the same field, it is enough that no node of the type had a mapped field. -/
theorem demote_promote_iff {tree promoted : Node}
    (h : (promotion.promote tree).result = .ok promoted) :
    ∃ demoted, (promotion.demote promoted).result = .ok demoted ∧
      (demoted = tree ↔ promotion.Restorable tree) ∧
      ((demoted == tree) = true ↔ promotion.Restorable tree) ∧
      ((∀ key other field, promotion.mapping.get? key = some field →
          promotion.mapping.get? other = some field → key = other) →
        (∀ places node, tree.at? places = some node → node.typeName = promotion.typeName →
          ∀ key field, promotion.mapping.get? key = some field → node.field? field = none) →
        demoted = tree) := by
  obtain ⟨rfl, goes, fields⟩ := run_eq_ok h
  have done := run_of_goes .demotionAborted (goes_demote_promoted goes) fields
  rw [Node.mapHeads_mapHeads] at done
  refine ⟨_, done, ?_⟩
  generalize back : tree.mapHeads _ = demoted
  have restored : promotion.Restorable tree → demoted = tree := by
    intro restorable
    rw [← back]
    refine Node.mapHeads_eq_self fun places node there => ?_
    by_cases typed : node.typeName = promotion.typeName
    · obtain ⟨moved, demoted⟩ := moved_demoted goes there typed
      exact (restorable places node there typed).restored moved demoted
    · rw [after_of_ne typed, after_of_ne typed]
  have restorable : (demoted == tree) = true → promotion.Restorable tree := by
    intro same places node there typed
    rw [← back] at same
    obtain ⟨moved, demoted⟩ := moved_demoted goes there typed
    obtain ⟨fields, data⟩ := Head.keys_of_beq (Node.beq_of_beq_mapHeads same places node there)
    exact Mapping.restorable_of_keys moved demoted fields data
  refine ⟨⟨fun same => restorable ?_, restored⟩, ⟨restorable, fun h => ?_⟩, ?_⟩
  · rw [same]
    exact BEq.refl tree
  · rw [restored h]
    exact BEq.refl tree
  · intro injective vacant
    refine restored fun places node there typed => ⟨vacant places node there typed, ?_⟩
    intro key field mapped _ other mapped'
    rw [injective key other field mapped mapped']
    exact String.lt_irrefl other

end Promotion

/-! ## The sample -/

namespace Sample

/-- A figure whose label stands in `data` under the second key. -/
def titledFigure : Node :=
  .empty { typeName := "Figure", data := some (KeyMap.empty.insert "title" (.string "a")) }

end Sample

namespace Promotion

/-- Both figures get the same label, and demotion leads back to the one that had it under the first
key. -/
theorem demote_promote_iff_figures :
    (Sample.labelled.promote (Sample.earlyFigure (.string "a"))).result =
        .ok (Sample.lateFigure (.string "a")) ∧
      (Sample.labelled.promote Sample.titledFigure).result =
        .ok (Sample.lateFigure (.string "a")) ∧
      Sample.labelled.Restorable (Sample.earlyFigure (.string "a")) ∧
      ¬Sample.labelled.Restorable Sample.titledFigure := by
  have early : (Sample.labelled.promote (Sample.earlyFigure (.string "a"))).result =
      .ok (Sample.lateFigure (.string "a")) := by rfl
  have titled : (Sample.labelled.promote Sample.titledFigure).result =
      .ok (Sample.lateFigure (.string "a")) := by rfl
  have back : (Sample.labelled.demote (Sample.lateFigure (.string "a"))).result =
      .ok (Sample.earlyFigure (.string "a")) := by rfl
  refine ⟨early, titled, ?_, ?_⟩
  · obtain ⟨demoted, done, same, -⟩ := demote_promote_iff early
    exact same.1 (Except.ok.inj (done.symm.trans back))
  · intro restorable
    obtain ⟨demoted, done, same, -⟩ := demote_promote_iff titled
    have figures : Sample.earlyFigure (.string "a") = Sample.titledFigure :=
      (Except.ok.inj (done.symm.trans back)).symm.trans (same.2 restorable)
    have title := congrArg (fun node => node.head.data.bind (·.get? "title")) figures
    cases title

end Promotion
end DocTree
