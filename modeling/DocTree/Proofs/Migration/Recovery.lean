import DocTree.Proofs.Migration.Chains

/-!
# Promotion after demotion

When no two keys have the same field, a demotion leaves each mapped field vacant, so a promotion can
follow it. It leads back to the tree unless it takes more along than the demotion had returned: keys
that were in `data` before, or a `data` that came about for the returned fields only.

## Main definitions

* `Mapping.Recoverable` — heads that a promotion recovers.

## Main statements

* `Mapping.Recoverable.recovered` — a recoverable head is recovered.
* `Mapping.recoverable_of_keys` — a head that has its fields and its `data` back was recoverable.
* `Promotion.promote_demote_iff` — which trees are recovered.
-/

namespace DocTree

namespace Mapping

variable {mapping : Mapping} {head middle next : Head} {key field : String}

/-- No mapped key is in `data`, and there is `data` where there is a mapped field. -/
structure Recoverable (mapping : Mapping) (head : Head) : Prop where
  clear : ∀ key field, mapping.get? key = some field → head.data.bind (·.get? key) = none
  present : ∀ key field, mapping.get? key = some field →
    (head.fields.get? field).isSome = true → head.data.isSome = true

/-! ## One head -/

/-- Where a field has one key, the value of this key is moved to it. -/
theorem Injective.moved?_eq (injective : mapping.Injective) (mapped : mapping.get? key = some field)
    (data : Option (KeyMap Json)) :
    moved? mapping.pairs data field = data.bind (·.get? key) := by
  cases found : moved? mapping.pairs data field with
  | some value =>
    obtain ⟨source, mem, there⟩ := moved?_eq_some found
    rw [injective key source field mapped (mem_pairs_iff.1 mem), there]
  | none =>
    have absent := List.findSome?_eq_none_iff.1 found _ (mem_pairs_iff.2 mapped)
    simpa using absent.symm

theorem Injective.returned?_eq (injective : mapping.Injective)
    (mapped : mapping.get? key = some field) (fields : KeyMap Json) :
    returned? mapping.pairs fields key = fields.get? field := by
  have first := keyOf?_pairs_eq_some_iff.2 (injective.leastKey mapped)
  have found : mapping.pairs.lookup key = some field := mapped
  simp [returned?, found, first]

theorem Demoted.vacant (demoted : Demoted mapping.pairs head middle)
    (mapped : mapping.get? key = some field) : middle.fields.get? field = none := by
  rw [demoted.fields, get?_unmapped, if_pos (any_field_pairs_iff.2 ⟨key, mapped⟩)]

/-- A mapped field comes back from `data`, where a value of its key prevails. -/
theorem get?_fields_promoted (injective : mapping.Injective)
    (demoted : Demoted mapping.pairs head middle) (moved : Moved mapping.pairs middle next)
    (mapped : mapping.get? key = some field) :
    next.fields.get? field = (head.data.bind (·.get? key)).or (head.fields.get? field) := by
  rw [moved.fields, demoted.vacant mapped, Option.none_or, injective.moved?_eq mapped, demoted.data,
    injective.returned?_eq mapped]

theorem get?_fields_promoted_of_unmapped (demoted : Demoted mapping.pairs head middle)
    (moved : Moved mapping.pairs middle next) (unmapped : ∀ key, mapping.get? key ≠ some field) :
    next.fields.get? field = head.fields.get? field := by
  have foreign : moved? mapping.pairs middle.data field = none :=
    Option.eq_none_iff_forall_ne_some.2 fun value found => by
      obtain ⟨key, mem, -⟩ := moved?_eq_some found
      exact unmapped key (mem_pairs_iff.1 mem)
  rw [moved.fields, foreign, Option.or_none, demoted.fields, get?_unmapped, if_neg]
  rw [any_field_pairs_iff]
  exact not_exists.2 unmapped

theorem get?_data_promoted (demoted : Demoted mapping.pairs head middle)
    (moved : Moved mapping.pairs middle next) (key : String) :
    next.data.bind (·.get? key) =
      if (mapping.get? key).isSome then none else head.data.bind (·.get? key) := by
  rw [moved.data, get?_rest, any_key_pairs]
  cases mapped : mapping.get? key with
  | some field => rfl
  | none =>
    have absent : mapping.pairs.lookup key = none := mapped
    simp [demoted.data, returned?, absent]

theorem isSome_data_promoted (demoted : Demoted mapping.pairs head middle)
    (moved : Moved mapping.pairs middle next) :
    next.data.isSome = true ↔ head.data.isSome = true ∨
      ∃ key field, mapping.get? key = some field ∧ (head.fields.get? field).isSome = true := by
  rw [moved.data, isSome_rest, demoted.present]
  simp [mem_pairs_iff, KeyMap.contains]

/-- A recoverable head is recovered. -/
theorem Recoverable.recovered (h : mapping.Recoverable head) (injective : mapping.Injective)
    (demoted : Demoted mapping.pairs head middle) (moved : Moved mapping.pairs middle next) :
    next = head := by
  have fields : next.fields = head.fields := by
    apply KeyMap.ext_get?
    intro field
    by_cases mapped : ∃ key, mapping.get? key = some field
    · obtain ⟨key, mapped⟩ := mapped
      rw [get?_fields_promoted injective demoted moved mapped, h.clear key field mapped,
        Option.none_or]
    · exact get?_fields_promoted_of_unmapped demoted moved (not_exists.1 mapped)
  have present : next.data.isSome = head.data.isSome := by
    rw [Bool.eq_iff_iff, isSome_data_promoted demoted moved]
    exact or_iff_left_of_imp fun ⟨key, field, mapped, own⟩ => h.present key field mapped own
  have data : next.data = head.data := by
    refine data_ext present fun key => ?_
    rw [get?_data_promoted demoted moved]
    cases mapped : mapping.get? key with
    | some field => simp [h.clear key field mapped]
    | none => rfl
  have typeName := moved.typeName.trans demoted.typeName
  cases next
  cases head
  simp_all

/-- A head that has its `data` back, with its keys, was recoverable. -/
theorem recoverable_of_keys (demoted : Demoted mapping.pairs head middle)
    (moved : Moved mapping.pairs middle next) (present : next.data.isSome = head.data.isSome)
    (data : ∀ key, (next.data.bind (·.get? key)).isSome = (head.data.bind (·.get? key)).isSome) :
    mapping.Recoverable head where
  clear key field mapped := by
    have same := data key
    simpa [get?_data_promoted demoted moved, mapped] using same.symm
  present key field mapped own :=
    present ▸ (isSome_data_promoted demoted moved).2 (.inr ⟨key, field, mapped, own⟩)

end Mapping

/-! ## Whole trees -/

namespace Promotion

variable {promotion : Promotion}

/-- **When promotion is the inverse of demotion.** After a demotion by a mapping without two keys
for one field, a promotion meets no conflict. It leads back to the tree, or to an equal one, exactly
when no node of the type had a mapped key in `data`, and each one that had a mapped field had
`data`. -/
theorem promote_demote_iff {tree demoted : Node} (injective : promotion.mapping.Injective)
    (h : (promotion.demote tree).result = .ok demoted) :
    ∃ promoted, (promotion.promote demoted).result = .ok promoted ∧
      (promoted = tree ↔ tree.AllOf promotion.typeName promotion.mapping.Recoverable) ∧
      ((promoted == tree) = true ↔
        tree.AllOf promotion.typeName promotion.mapping.Recoverable) := by
  have down := changedIn_demoted h
  have agrees : demoted.AllOf promotion.typeName (Mapping.Agrees promotion.mapping.pairs) :=
    (down.allOf_iff (P := fun _ => True) (fun _ _ changed => changed.1.typeName)
      fun _ _ changed => iff_of_true (injective.agrees fun _ _ => changed.1.vacant) trivial).2
      fun _ _ _ _ => trivial
  obtain ⟨promoted, done⟩ := (exists_promote_iff_agrees promotion (run_eq_ok h).2.2).2 agrees
  have both := down.trans (changedIn_moved done) (fun _ _ changed => changed.1.typeName)
    (Q := fun head next => ∃ middle, Mapping.Demoted promotion.mapping.pairs head middle ∧
      Mapping.Moved promotion.mapping.pairs middle next)
    fun _ middle _ first second => ⟨middle, first.1, second.1⟩
  refine ⟨promoted, done, both.eq_iff ?_ ?_⟩
  · rintro head next ⟨middle, demoted, moved⟩ recoverable
    exact recoverable.recovered injective demoted moved
  · rintro head next ⟨middle, demoted, moved⟩ equal
    exact Mapping.recoverable_of_keys demoted moved (Head.present_of_beq equal)
      (Head.keys_of_beq equal).2

end Promotion

/-! ## The sample -/

namespace Sample

/-- A promotion of labels under one key. -/
def singleLabels : Promotion :=
  { typeName := "Figure", mapping := .ofPairs [("label", "label")] }

theorem injective_singleLabels : singleLabels.mapping.Injective := by
  intro key other field mapped mapped'
  have mem : (key, field) ∈ [("label", "label")] := Mapping.mem_pairs_iff.2 mapped
  have mem' : (other, field) ∈ [("label", "label")] := Mapping.mem_pairs_iff.2 mapped'
  simp_all

/-- A figure with a label around one that has a note in `data` besides. -/
def notedFigures (data : Option (KeyMap Json)) : Node :=
  .container
    { typeName := "Figure", fields := KeyMap.empty.insert "label" (.string "a"), data }
    [ .empty
        { typeName := "Figure"
          fields := KeyMap.empty.insert "label" (.string "b")
          data := some (KeyMap.empty.insert "note" .null) } ]

/-- The figures with their labels in `data`. -/
def unnotedFigures : Node :=
  .container
    { typeName := "Figure", data := some (KeyMap.empty.insert "label" (.string "a")) }
    [ .empty
        { typeName := "Figure"
          data := some ((KeyMap.empty.insert "label" (.string "b")).insert "note" .null) } ]

end Sample

namespace Promotion

/-- With and without `data` the outer figure is demoted to the same one. Promotion leads back to the
one with `data`. -/
theorem promote_demote_iff_figures :
    Sample.singleLabels.mapping.Injective ∧
      (Sample.singleLabels.demote (Sample.notedFigures (some .empty))).result =
        .ok Sample.unnotedFigures ∧
      (Sample.singleLabels.demote (Sample.notedFigures none)).result =
        .ok Sample.unnotedFigures ∧
      (Sample.singleLabels.promote Sample.unnotedFigures).result =
        .ok (Sample.notedFigures (some .empty)) ∧
      (Sample.notedFigures (some .empty)).AllOf "Figure" Sample.singleLabels.mapping.Recoverable ∧
      ¬(Sample.notedFigures none).AllOf "Figure" Sample.singleLabels.mapping.Recoverable := by
  have injective := Sample.injective_singleLabels
  have down : (Sample.singleLabels.demote (Sample.notedFigures (some .empty))).result =
      .ok Sample.unnotedFigures := by rfl
  have down' : (Sample.singleLabels.demote (Sample.notedFigures none)).result =
      .ok Sample.unnotedFigures := by rfl
  have up : (Sample.singleLabels.promote Sample.unnotedFigures).result =
      .ok (Sample.notedFigures (some .empty)) := by rfl
  refine ⟨injective, down, down', up, ?_, fun recoverable => ?_⟩
  · obtain ⟨promoted, done, same, -⟩ := promote_demote_iff injective down
    exact same.1 (Except.ok.inj (done.symm.trans up))
  · obtain ⟨promoted, done, same, -⟩ := promote_demote_iff injective down'
    have figures : Sample.notedFigures (some .empty) = Sample.notedFigures none :=
      (Except.ok.inj (up.symm.trans done)).trans (same.2 recoverable)
    cases congrArg (·.head.data) figures

end Promotion
end DocTree
