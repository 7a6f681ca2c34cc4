import DocTree.Proofs.Migration.Unions

/-!
# Promotions in either order

Promotions of different types change different heads. Promotions of one type by different data keys
come to the one promotion by the keys of both, whichever is made first. So independent promotions
may be made in either order, also when both give a value to the same field: where these values
differ, whichever is made later meets the conflict.

## Main definitions

* `Promotion.Independent` — promotions of different types, or by different data keys.
* `Promotion.thenPromote` — one promotion after the other.

## Main statements

* `Mapping.orElse_comm` — of two mappings without a common key neither prevails.
* `Promotion.gathers_thenPromote` — two promotions of one type.
* `Promotion.after_comm` — two promotions of different types.
* `Promotion.promotions_commute` — independent promotions in either order.
-/

namespace DocTree

theorem Mapping.orElse_comm {one other : Mapping}
    (apart : ∀ key, one.get? key = none ∨ other.get? key = none) :
    one.orElse other = other.orElse one := by
  refine congrArg Mapping.mk (KeyMap.ext_get? fun key => ?_)
  change (one.orElse other).get? key = (other.orElse one).get? key
  rw [get?_orElse, get?_orElse]
  rcases apart key with absent | absent <;> simp [absent]

namespace Promotion

variable {one other : Promotion} {tree result : Node}

/-! ## Definitions -/

/-- The types of two promotions differ, or no data key is moved by both. -/
def Independent (one other : Promotion) : Prop :=
  one.typeName = other.typeName →
    ∀ key, one.mapping.get? key = none ∨ other.mapping.get? key = none

/-- What the second promotion makes of the tree that the first one makes. -/
def thenPromote (one other : Promotion) (tree : Node) : Except PromotionError Node :=
  (one.promote tree).result >>= fun promoted => (other.promote promoted).result

theorem Independent.symm (h : one.Independent other) : other.Independent one :=
  fun same key => (h same.symm key).symm

/-! ## One type -/

variable {typeName : String} {mapping later : Mapping}

/-- Two promotions of a type come to the one by both mappings. -/
theorem gathers_thenPromote (fields : ∀ field ∈ mapping.targets, isBaseKey field = false)
    (fields' : ∀ field ∈ later.targets, isBaseKey field = false) (tree : Node) :
    Gathers typeName (mapping.orElse later)
      (thenPromote ⟨typeName, mapping⟩ ⟨typeName, later⟩) tree :=
  (gathers_promote typeName fields tree).andThen (gathers_promote typeName fields')

/-- Promotions of one type by different keys can be exchanged. -/
theorem exists_exchanged_of_apart (apart : ∀ key, mapping.get? key = none ∨ later.get? key = none)
    (done : thenPromote ⟨typeName, mapping⟩ ⟨typeName, later⟩ tree = .ok result) :
    ∃ exchanged, thenPromote ⟨typeName, later⟩ ⟨typeName, mapping⟩ tree = .ok exchanged ∧
      (result == exchanged) = true := by
  obtain ⟨promoted, first, second⟩ := Except.bind_eq_ok_iff.1 done
  have fields : ∀ field ∈ mapping.targets, isBaseKey field = false := (run_eq_ok first).2.2
  have fields' : ∀ field ∈ later.targets, isBaseKey field = false := (run_eq_ok second).2.2
  have gathers := @gathers_thenPromote typeName _ _ fields fields' tree
  rw [Mapping.orElse_comm apart] at gathers
  exact gathers.exists_beq (gathers_thenPromote fields' fields tree) done

/-! ## Different types -/

/-- A move of another type meets the same heads after a promotion as before it. -/
theorem goes_promoted_iff (differ : one.typeName ≠ other.typeName)
    {move : Head → Except Clash (Option Head)} :
    other.Goes move (tree.mapHeads (one.after one.mapping.promote)) ↔ other.Goes move tree := by
  have same : ∀ node : Node, node.typeName = other.typeName →
      (node.mapHeads (one.after one.mapping.promote)).head = node.head := fun node typed => by
    rw [Node.head_mapHeads]
    exact after_of_ne fun own => differ (own.symm.trans typed)
  have sameType : ∀ node : Node,
      (node.mapHeads (one.after one.mapping.promote)).typeName = node.typeName := fun node => by
    rw [Node.typeName_mapHeads]
    exact one.typeName_after node.head
  constructor
  · intro goes places node there typed
    rw [← same node typed]
    exact goes places _ (by rw [Node.at?_mapHeads, there]; rfl) ((sameType node).trans typed)
  · intro goes places moved there typed
    rw [Node.at?_mapHeads] at there
    obtain ⟨node, here, rfl⟩ := Option.map_eq_some_iff.1 there
    rw [sameType] at typed
    rw [same node typed]
    exact goes places node here typed

/-- Promotions of different types change a head in either order. -/
theorem after_comm (differ : one.typeName ≠ other.typeName) (head : Head) :
    other.after other.mapping.promote (one.after one.mapping.promote head) =
      one.after one.mapping.promote (other.after other.mapping.promote head) := by
  by_cases own : head.typeName = one.typeName
  · have foreign : (one.after one.mapping.promote head).typeName ≠ other.typeName := by
      rw [typeName_after, own]
      exact differ
    have other' : head.typeName ≠ other.typeName := fun same => differ (own.symm.trans same)
    rw [after_of_ne foreign, after_of_ne other']
  · have foreign : (other.after other.mapping.promote head).typeName ≠ one.typeName := by
      rw [typeName_after]
      exact own
    rw [after_of_ne own, after_of_ne foreign]

/-- Promotions of different types can be exchanged. -/
theorem thenPromote_comm_of_ne (differ : one.typeName ≠ other.typeName)
    (done : one.thenPromote other tree = .ok result) : other.thenPromote one tree = .ok result := by
  obtain ⟨promoted, first, second⟩ := Except.bind_eq_ok_iff.1 done
  obtain ⟨rfl, goes, fields⟩ := run_eq_ok first
  obtain ⟨rfl, goes', fields'⟩ := run_eq_ok second
  have first' : (other.promote tree).result =
      .ok (tree.mapHeads (other.after other.mapping.promote)) :=
    run_of_goes .promotionAborted ((goes_promoted_iff differ).1 goes') fields'
  have second' := run_of_goes .promotionAborted ((goes_promoted_iff differ.symm).2 goes) fields
  refine Except.bind_eq_ok_iff.2 ⟨_, first', second'.trans ?_⟩
  rw [Node.mapHeads_mapHeads, Node.mapHeads_mapHeads]
  exact congrArg (fun change => Except.ok (tree.mapHeads change))
    (funext fun head => (after_comm differ head).symm)

/-! ## Independent promotions -/

/-- Independent promotions can be exchanged. -/
theorem Independent.exists_exchanged (independent : one.Independent other)
    (done : one.thenPromote other tree = .ok result) :
    ∃ exchanged, other.thenPromote one tree = .ok exchanged ∧ (result == exchanged) = true := by
  obtain ⟨typeName, mapping⟩ := one
  obtain ⟨otherName, later⟩ := other
  by_cases same : typeName = otherName
  · subst same
    exact exists_exchanged_of_apart (independent rfl) done
  · exact ⟨result, thenPromote_comm_of_ne same done, BEq.refl result⟩

/-- **Independent promotions commute.** Two promotions of different types, or of one type by
different data keys, succeed one after the other in one order exactly when they do in the other
order, and then both results are equal. Their fields may be the same. -/
theorem promotions_commute (independent : one.Independent other) (tree : Node) :
    ((∃ result, one.thenPromote other tree = .ok result) ↔
        ∃ result, other.thenPromote one tree = .ok result) ∧
      ∀ result exchanged, one.thenPromote other tree = .ok result →
        other.thenPromote one tree = .ok exchanged → (result == exchanged) = true := by
  refine ⟨⟨?_, ?_⟩, ?_⟩
  · rintro ⟨result, done⟩
    obtain ⟨exchanged, done', -⟩ := independent.exists_exchanged done
    exact ⟨exchanged, done'⟩
  · rintro ⟨result, done⟩
    obtain ⟨exchanged, done', -⟩ := independent.symm.exists_exchanged done
    exact ⟨exchanged, done'⟩
  · intro result exchanged done done'
    obtain ⟨found, done'', equal⟩ := independent.exists_exchanged done
    obtain rfl := Except.ok.inj (done'.symm.trans done'')
    exact equal

end Promotion

/-! ## The sample -/

namespace Sample

/-- A promotion of labels from their own key. -/
def fromLabel : Promotion := { typeName := "Figure", mapping := .ofPairs [("label", "label")] }

/-- A promotion of labels from titles. -/
def fromTitle : Promotion := { typeName := "Figure", mapping := .ofPairs [("title", "label")] }

end Sample

namespace Promotion

/-- Both promotions give figures a label. When the values under both keys are equal, they can be
made in either order. When they differ in the inner figure, neither order succeeds. -/
theorem promotions_commute_figures :
    Sample.fromLabel.Independent Sample.fromTitle ∧
      Sample.fromLabel.thenPromote Sample.fromTitle (Sample.nestedFigures "b" "a") =
        .ok Sample.gatheredFigures ∧
      (∃ exchanged,
        Sample.fromTitle.thenPromote Sample.fromLabel (Sample.nestedFigures "b" "a") =
          .ok exchanged ∧
        (Sample.gatheredFigures == exchanged) = true) ∧
      ¬∃ result, Sample.fromTitle.thenPromote Sample.fromLabel (Sample.nestedFigures "c" "a") =
        .ok result := by
  have independent : Sample.fromLabel.Independent Sample.fromTitle := by
    intro _ key
    by_cases same : key = "label"
    · subst same
      exact .inr rfl
    · have absent : Sample.fromLabel.mapping.get? key = none :=
        (KeyMap.get?_insert .empty "label" key "label").trans (if_neg same)
      exact .inl absent
  have done : Sample.fromLabel.thenPromote Sample.fromTitle (Sample.nestedFigures "b" "a") =
      .ok Sample.gatheredFigures := by rfl
  have failed : Sample.fromLabel.thenPromote Sample.fromTitle (Sample.nestedFigures "c" "a") =
      .error (.conflict "Figure" "title" "label" (.ofPlaces [0])) := by rfl
  obtain ⟨succeeds, equal⟩ := promotions_commute independent (Sample.nestedFigures "b" "a")
  obtain ⟨fails, -⟩ := promotions_commute independent (Sample.nestedFigures "c" "a")
  obtain ⟨exchanged, done'⟩ := succeeds.1 ⟨_, done⟩
  refine ⟨independent, done, ⟨exchanged, done', equal _ _ done done'⟩, mt fails.2 ?_⟩
  simp [failed]

end Promotion
end DocTree
