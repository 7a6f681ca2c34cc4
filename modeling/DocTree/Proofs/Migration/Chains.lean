import DocTree.Proofs.Migration.Inverse
import DocTree.Proofs.Migration.Steps

/-!
# Chains of steps and back

A chain of steps can be undone when no two of its moves have the same field, and no node of the type
has such a field beforehand. Then no step meets a conflict on the way up, although a later step may
name keys that an earlier one has taken away, and each step on the way down restores the tree that
the step up was made from.

## Main definitions

* `Migrations.Moves` — the step from a version moves a data key to a field.
* `Migrations.Reversible` — a chain of steps whose moves have fields of their own.
* `Migrations.Vacant` — the nodes of a type have none of the fields of a chain.

## Main statements

* `Mapping.exists_promote` — a promotion into vacant fields meets no conflict.
* `Promotion.demote_promote_of_vacant` — one step up and back.
* `Migrations.downgrade_upgrade` — the whole chain up and back.
-/

namespace DocTree

/-! ## One head -/

namespace Mapping

variable {pairs : List (String × String)} {head : Head} {mapping : Mapping}

/-- No two keys have the same field. -/
def Injective (mapping : Mapping) : Prop :=
  ∀ key other field, mapping.get? key = some field → mapping.get? other = some field → key = other

/-- For a field that is not there, and has one key, there is at most one value. -/
theorem Injective.agrees (injective : mapping.Injective)
    (vacant : ∀ key field, mapping.get? key = some field → head.fields.get? field = none) :
    Agrees mapping.pairs head := by
  rintro field value other (own | ⟨key, mem, found⟩) (own' | ⟨key', mem', found'⟩)
  · obtain rfl := Option.some.inj (own.symm.trans own')
    exact BEq.refl value
  · cases (vacant key' field (mem_pairs_iff.1 mem')).symm.trans own
  · cases (vacant key field (mem_pairs_iff.1 mem)).symm.trans own'
  · obtain rfl := injective key key' field (mem_pairs_iff.1 mem) (mem_pairs_iff.1 mem')
    obtain rfl := Option.some.inj (found.symm.trans found')
    exact BEq.refl value

/-- A promotion into vacant fields, each of them for one key, meets no conflict. -/
theorem exists_promote (injective : mapping.Injective)
    (vacant : ∀ key field, mapping.get? key = some field → head.fields.get? field = none) :
    ∃ moved, mapping.promote head = .ok moved :=
  exists_promote_iff.2 (injective.agrees vacant)

theorem Injective.leastKey (injective : mapping.Injective) {key field : String}
    (mapped : mapping.get? key = some field) : mapping.LeastKey key field := by
  refine ⟨mapped, fun other mapped' => ?_⟩
  rw [injective key other field mapped mapped']
  exact String.lt_irrefl other

theorem Injective.restorable (injective : mapping.Injective)
    (vacant : ∀ key field, mapping.get? key = some field → head.fields.get? field = none) :
    mapping.Restorable head where
  vacant := vacant
  least _ _ mapped _ := (injective.leastKey mapped).2

end Mapping

/-! ## One step -/

namespace Promotion

variable {promotion : Promotion}

/-- The nodes of the type have none of the fields. -/
def Vacant (promotion : Promotion) (tree : Node) : Prop :=
  ∀ places node, tree.at? places = some node → node.typeName = promotion.typeName →
    ∀ key field, promotion.mapping.get? key = some field → node.field? field = none

/-- A promotion into vacant fields, each of them for one key, succeeds, and demotion leads back. -/
theorem demote_promote_of_vacant {tree : Node}
    (fields : ∀ field ∈ promotion.mapping.targets, isBaseKey field = false)
    (injective : promotion.mapping.Injective) (vacant : promotion.Vacant tree) :
    ∃ promoted, (promotion.promote tree).result = .ok promoted ∧
      (promotion.demote promoted).result = .ok tree := by
  have goes : promotion.Goes promotion.mapping.promote tree := fun places node there typed =>
    Mapping.exists_promote injective (vacant places node there typed)
  have done := run_of_goes .demotionAborted (goes_demote_promoted goes) fields
  refine ⟨_, run_of_goes .promotionAborted goes fields, done.trans (congrArg _ ?_)⟩
  rw [Node.mapHeads_mapHeads]
  refine Node.mapHeads_eq_self fun places node there => ?_
  by_cases typed : node.typeName = promotion.typeName
  · obtain ⟨moved, demoted⟩ := moved_demoted goes there typed
    exact (injective.restorable (vacant places node there typed)).restored moved demoted
  · rw [after_of_ne typed, after_of_ne typed]

end Promotion

/-! ## Chains -/

namespace Migrations

variable {migrations : Migrations} {typeName : String} {earlier later version : UInt32}

/-- The step of a type from a version moves a data key to a field. -/
def Moves (migrations : Migrations) (typeName : String) (version : UInt32) (key field : String) :
    Prop :=
  ∃ mapping, migrations.mapping? typeName version = some mapping ∧ mapping.get? key = some field

/-- There is a step from each version before the later one, from the earlier one on. No field of
theirs is a base key, and no two moves have the same field. -/
structure Reversible (migrations : Migrations) (typeName : String) (earlier later : UInt32) :
    Prop where
  steps : ∀ version, earlier ≤ version → version < later →
    ∃ mapping, migrations.mapping? typeName version = some mapping
  fields : ∀ version key field, earlier ≤ version → version < later →
    migrations.Moves typeName version key field → isBaseKey field = false
  apart : ∀ version other key source field, earlier ≤ version → version < later →
    earlier ≤ other → other < later → migrations.Moves typeName version key field →
    migrations.Moves typeName other source field → version = other ∧ key = source

/-- The nodes of the type have none of the fields of the steps between two versions. -/
def Vacant (migrations : Migrations) (typeName : String) (earlier later : UInt32) (tree : Node) :
    Prop :=
  ∀ places node, tree.at? places = some node → node.typeName = typeName →
    ∀ version key field, earlier ≤ version → version < later →
      migrations.Moves typeName version key field → node.field? field = none

/-! ### The first step -/

theorem upgradeBy_succ {mapping : Mapping} {tree promoted : Node}
    (step : migrations.mapping? typeName version = some mapping)
    (done : (Promotion.promote ⟨typeName, mapping⟩ tree).result = .ok promoted) (steps : Nat) :
    migrations.upgradeBy typeName (steps + 1) version tree =
      migrations.upgradeBy typeName steps (version + 1) promoted := by
  cases run : Promotion.promote ⟨typeName, mapping⟩ tree with
  | mk result notices =>
    rw [run] at done
    cases done
    simp only [upgradeBy, Migrations.step, step, run]

theorem downgradeBy_succ {mapping : Mapping} {tree demoted : Node}
    (step : migrations.mapping? typeName version = some mapping)
    (done : (Promotion.demote ⟨typeName, mapping⟩ tree).result = .ok demoted) (steps : Nat) :
    migrations.downgradeBy typeName (steps + 1) (version + 1) tree =
      migrations.downgradeBy typeName steps version demoted := by
  cases run : Promotion.demote ⟨typeName, mapping⟩ tree with
  | mk result notices =>
    rw [run] at done
    cases done
    simp only [downgradeBy, Migrations.step, UInt32.add_sub_cancel, step, run]

theorem lt_of_succ_le (below : version < later) {other : UInt32} (h : version + 1 ≤ other) :
    version < other := by
  grind

theorem Reversible.tail (chain : migrations.Reversible typeName earlier later)
    (below : earlier < later) : migrations.Reversible typeName (earlier + 1) later where
  steps version start := chain.steps version (UInt32.le_of_lt (lt_of_succ_le below start))
  fields version key field start :=
    chain.fields version key field (UInt32.le_of_lt (lt_of_succ_le below start))
  apart version other key source field start stop start' :=
    chain.apart version other key source field (UInt32.le_of_lt (lt_of_succ_le below start)) stop
      (UInt32.le_of_lt (lt_of_succ_le below start'))

/-- What a step fills is no field of a later step, so that these find their fields vacant. -/
theorem Vacant.tail (chain : migrations.Reversible typeName earlier later)
    (below : earlier < later) {mapping : Mapping}
    (step : migrations.mapping? typeName earlier = some mapping) {tree promoted : Node}
    (done : (Promotion.promote ⟨typeName, mapping⟩ tree).result = .ok promoted)
    (vacant : migrations.Vacant typeName earlier later tree) :
    migrations.Vacant typeName (earlier + 1) later promoted := by
  refine Promotion.promote_heads
    (P := fun head => head.typeName = typeName → ∀ version key field, earlier ≤ version →
      version < later → migrations.Moves typeName version key field →
      head.fields.get? field = none)
    (Q := fun head => head.typeName = typeName → ∀ version key field, earlier + 1 ≤ version →
      version < later → migrations.Moves typeName version key field →
      head.fields.get? field = none) done ?_ ?_ vacant
  · exact fun head other _ typed => absurd typed other
  · intro head next typed moved before _ version key field start stop moves
    have after := lt_of_succ_le below start
    rw [moved.fields, before typed version key field (UInt32.le_of_lt after) stop moves,
      Option.none_or]
    apply Option.eq_none_iff_forall_ne_some.2
    intro value found
    obtain ⟨source, mem, -⟩ := Mapping.moved?_eq_some found
    obtain ⟨same, -⟩ := chain.apart version earlier key source field (UInt32.le_of_lt after) stop
      (UInt32.le_refl _) below moves ⟨mapping, step, Mapping.mem_pairs_iff.1 mem⟩
    exact UInt32.lt_irrefl _ (same ▸ after)

/-- The first step of a chain succeeds, and demotion leads back. -/
theorem Reversible.first (chain : migrations.Reversible typeName earlier later)
    (below : earlier < later) {mapping : Mapping}
    (step : migrations.mapping? typeName earlier = some mapping) {tree : Node}
    (vacant : migrations.Vacant typeName earlier later tree) :
    ∃ promoted, (Promotion.promote ⟨typeName, mapping⟩ tree).result = .ok promoted ∧
      (Promotion.demote ⟨typeName, mapping⟩ promoted).result = .ok tree := by
  have start := UInt32.le_refl earlier
  refine Promotion.demote_promote_of_vacant ?_ ?_ ?_
  · intro field mem
    obtain ⟨key, mapped⟩ := Mapping.mem_targets_iff.1 mem
    exact chain.fields earlier key field start below ⟨mapping, step, mapped⟩
  · intro key other field mapped mapped'
    exact (chain.apart earlier earlier key other field start below start below
      ⟨mapping, step, mapped⟩ ⟨mapping, step, mapped'⟩).2
  · intro places node there typed key field mapped
    exact vacant places node there typed earlier key field start below ⟨mapping, step, mapped⟩

/-! ### Whole chains -/

/-- So many steps of a chain succeed. As many steps back lead to the tree, and what is to be done
after them goes on from there. -/
theorem Reversible.upgradeBy {steps : Nat} (versions : version.toNat + steps = later.toNat)
    (chain : migrations.Reversible typeName version later) {tree : Node}
    (vacant : migrations.Vacant typeName version later tree) :
    ∃ upgraded, (migrations.upgradeBy typeName steps version tree).result = .ok upgraded ∧
      ∀ more, migrations.downgradeBy typeName (steps + more) later upgraded =
        migrations.downgradeBy typeName more version tree := by
  -- The first step up is the last one down: the induction undoes the steps after it.
  induction steps generalizing version tree with
  | zero =>
    obtain rfl : version = later := UInt32.toNat_inj.1 versions
    exact ⟨tree, rfl, fun more => by rw [Nat.zero_add]⟩
  | succ steps ih =>
    have below : version < later := UInt32.lt_iff_toNat_lt.2 (by omega)
    obtain ⟨mapping, step⟩ := chain.steps version (UInt32.le_refl _) below
    obtain ⟨promoted, up, down⟩ := chain.first below step vacant
    obtain ⟨upgraded, done, back⟩ := ih (versions_succ versions) (chain.tail below)
      (vacant.tail chain below step up)
    refine ⟨upgraded, by rw [upgradeBy_succ step up, done], fun more => ?_⟩
    rw [Nat.add_assoc, Nat.add_comm 1 more, back, downgradeBy_succ step down]

/-- **A downgrade undoes an upgrade.** Let there be a step from each version on the way, where no
field is a base key and no two moves have the same field, and let no node of the type have such a
field. Then the tree can be upgraded, and the downgrade of the upgraded tree is the tree. -/
theorem downgrade_upgrade (chain : migrations.Reversible typeName earlier later) {tree : Node}
    (vacant : migrations.Vacant typeName earlier later tree) :
    ∃ upgraded, (migrations.upgrade tree typeName earlier later).result = .ok upgraded ∧
      (migrations.downgrade upgraded typeName later earlier).result = .ok tree := by
  rcases Nat.le_total earlier.toNat later.toNat with forward | backward
  · have versions : earlier.toNat + (later.toNat - earlier.toNat) = later.toNat := by omega
    obtain ⟨upgraded, done, back⟩ := chain.upgradeBy versions vacant
    exact ⟨upgraded, done, congrArg Noted.result (back 0)⟩
  · have none : later.toNat - earlier.toNat = 0 := by omega
    exact ⟨tree, by rw [upgrade, none]; rfl, by rw [downgrade, none]; rfl⟩

end Migrations

/-! ## The sample -/

namespace Sample

/-- Two steps of figures. The second one also names the key that the first one takes away. -/
def figureSteps : Migrations :=
  { steps :=
      [ (("Figure", 1), .ofPairs [("label", "label")]),
        (("Figure", 2), .ofPairs [("caption", "caption"), ("label", "title")]) ] }

/-- A box with a figure that has a label and a caption in `data`, and one that has a label there. -/
def firstBox : Node :=
  .container { typeName := "Box" }
    [ .empty
        { typeName := "Figure"
          data := some <|
            (KeyMap.empty.insert "label" (.string "a")).insert "caption" (.string "b") },
      earlyFigure (.string "c") ]

/-- The box after both steps. -/
def thirdBox : Node :=
  .container { typeName := "Box" }
    [ .empty
        { typeName := "Figure"
          fields := (KeyMap.empty.insert "label" (.string "a")).insert "caption" (.string "b")
          data := some .empty },
      lateFigure (.string "c") ]

theorem moves_figureSteps {version : UInt32} {key field : String}
    (h : figureSteps.Moves "Figure" version key field) :
    (version, key, field) ∈
      [(1, "label", "label"), (2, "caption", "caption"), (2, "label", "title")] := by
  obtain ⟨mapping, step, mapped⟩ := h
  obtain ⟨before, after, steps, -⟩ := List.lookup_eq_some_iff.1 step
  have mem : (("Figure", version), mapping) ∈ figureSteps.steps := by simp [steps]
  have pair := Mapping.mem_pairs_iff.2 mapped
  simp only [figureSteps, List.mem_cons, Prod.mk.injEq, List.not_mem_nil, or_false] at mem
  rcases mem with ⟨⟨-, rfl⟩, rfl⟩ | ⟨⟨-, rfl⟩, rfl⟩
  · have pairs : (key, field) ∈ [("label", "label")] := pair
    simp_all
  · have pairs : (key, field) ∈ [("caption", "caption"), ("label", "title")] := pair
    simp_all

theorem reversible_figureSteps : figureSteps.Reversible "Figure" 1 3 where
  steps version start stop := by
    have versions : version = 1 ∨ version = 2 := by grind
    rcases versions with rfl | rfl <;> exact ⟨_, rfl⟩
  fields version key field _ _ moves := by
    have mem := moves_figureSteps moves
    simp only [List.mem_cons, Prod.mk.injEq, List.not_mem_nil, or_false] at mem
    rcases mem with ⟨-, -, rfl⟩ | ⟨-, -, rfl⟩ | ⟨-, -, rfl⟩ <;> decide
  apart version other key source field _ _ _ _ moves moves' := by
    have mem := moves_figureSteps moves
    have mem' := moves_figureSteps moves'
    simp only [List.mem_cons, Prod.mk.injEq, List.not_mem_nil, or_false] at mem mem'
    grind

theorem vacant_firstBox : figureSteps.Vacant "Figure" 1 3 firstBox := by
  have bare : ∀ places node, firstBox.at? places = some node → node.head.fields = .empty := by
    refine (Node.forall_at?_iff (P := fun _ node => node.head.fields = .empty)).2 ⟨rfl, ?_⟩
    refine List.forall_mem_cons.2 ⟨?_, List.forall_mem_singleton.2 ?_⟩ <;>
      exact (Node.forall_at?_iff (P := fun _ node => node.head.fields = .empty)).2
        ⟨rfl, List.forall_mem_nil _⟩
  intro places node there _ _ _ field _ _ _
  rw [Node.field?, bare places node there]
  rfl

end Sample

namespace Migrations

/-- Both figures of the box go up two steps and come back. -/
theorem downgrade_upgrade_boxed :
    Sample.figureSteps.Reversible "Figure" 1 3 ∧
      Sample.figureSteps.Vacant "Figure" 1 3 Sample.firstBox ∧
      (Sample.figureSteps.upgrade Sample.firstBox "Figure" 1 3).result = .ok Sample.thirdBox ∧
      (Sample.figureSteps.downgrade Sample.thirdBox "Figure" 3 1).result = .ok Sample.firstBox := by
  have up : (Sample.figureSteps.upgrade Sample.firstBox "Figure" 1 3).result =
      .ok Sample.thirdBox := by rfl
  obtain ⟨upgraded, done, back⟩ :=
    downgrade_upgrade Sample.reversible_figureSteps Sample.vacant_firstBox
  obtain rfl : upgraded = Sample.thirdBox := Except.ok.inj (done.symm.trans up)
  exact ⟨Sample.reversible_figureSteps, Sample.vacant_firstBox, up, back⟩

end Migrations
end DocTree
