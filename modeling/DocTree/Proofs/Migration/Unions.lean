import DocTree.Proofs.Migration.Chains

/-!
# A chain of steps as one promotion

A later step of a chain finds what the earlier ones have left: their keys are gone from `data`, and
their fields hold one value in the place of those that have been gathered. So a chain comes to one
promotion by all its mappings, where the earliest step that names a key decides on its field.

## Main definitions

* `Mapping.orElse` — the keys of two mappings, where the first one prevails.
* `Migrations.combined` — the mapping of a chain of steps.
* `Promotion.Gathers` — what is made of a tree comes to a promotion by a mapping.
* `Migrations.Complete` — a chain without a gap, and without a base key.

## Main statements

* `Mapping.Gathered.agrees_iff`, `Mapping.Gathered.trans` — two promotions of a head come to one.
* `Mapping.Gathered.beq` — what values are gathered to is unique, but for equality.
* `Promotion.Gathers.andThen` — two runs come to the promotion by both mappings.
* `Migrations.get?_combined_eq_some_iff` — the field of a key is that of the earliest step.
* `Migrations.Complete.upgrade` — what a chain of steps makes of a tree.
* `Migrations.upgrade_eq_promote_combined` — the chain and the one promotion.
-/

namespace DocTree

/-! ## Two promotions of one head -/

namespace Mapping

variable {mapping later : Mapping} {pairs : List (String × String)} {head middle next other : Head}
  {key field : String} {value : Json}

/-- The fields of the keys of two mappings. The first mapping prevails. -/
def orElse (mapping later : Mapping) : Mapping :=
  ⟨later.fields.insertAll mapping.fields.entries⟩

@[simp] theorem get?_orElse (mapping later : Mapping) (key : String) :
    (mapping.orElse later).get? key = (mapping.get? key).or (later.get? key) :=
  KeyMap.get?_insertAll later.fields mapping.fields key

@[simp] theorem get?_empty (key : String) : Mapping.empty.get? key = none := rfl

/-- What the second promotion finds for a field was there before the first one. -/
theorem Gathered.offers (gathered : Gathered mapping.pairs head middle)
    (h : Offers later.pairs middle field value) :
    Offers (mapping.orElse later).pairs head field value := by
  rcases h with own | ⟨key, mem, found⟩
  · rcases (gathered.received field value own).1 with own | ⟨key, mem, found⟩
    · exact .inl own
    · exact .inr ⟨key, by simp_all [mem_pairs_iff], found⟩
  · rw [gathered.data, any_key_pairs] at found
    cases mapped : mapping.get? key with
    | some _ => simp [mapped] at found
    | none =>
      refine .inr ⟨key, by simp_all [mem_pairs_iff], ?_⟩
      simpa [mapped] using found

/-- What was there for a field is found by the second promotion, as it was or as an equal value. -/
theorem Gathered.exists_offers (gathered : Gathered mapping.pairs head middle)
    (h : Offers (mapping.orElse later).pairs head field value) :
    ∃ found, Offers later.pairs middle field found ∧ (found == value) = true := by
  rcases h with own | ⟨key, mem, there⟩
  · exact ⟨value, .inl (gathered.kept field value own), BEq.refl value⟩
  · rw [mem_pairs_iff, get?_orElse] at mem
    cases mapped : mapping.get? key with
    | some target =>
      obtain rfl : target = field := by simpa [mapped] using mem
      have offered : Offers mapping.pairs head target value :=
        .inr ⟨key, mem_pairs_iff.2 mapped, there⟩
      obtain ⟨found, own⟩ := gathered.complete target value offered
      exact ⟨found, .inl own, (gathered.received target found own).2 value offered⟩
    | none =>
      refine ⟨value, .inr ⟨key, by simp_all [mem_pairs_iff], ?_⟩, BEq.refl value⟩
      simp [gathered.data, any_key_pairs, mapped, there]

/-- The second promotion finds equal values exactly when there were equal values for both. -/
theorem Gathered.agrees_iff (gathered : Gathered mapping.pairs head middle) :
    Agrees later.pairs middle ↔ Agrees (mapping.orElse later).pairs head := by
  constructor
  · intro agrees field value other h h'
    obtain ⟨found, offered, equal⟩ := gathered.exists_offers h
    obtain ⟨found', offered', equal'⟩ := gathered.exists_offers h'
    have middle := agrees field found found' offered offered'
    exact Json.same_trans ((Json.same_comm _ _).trans equal) (Json.same_trans middle equal')
  · intro agrees field value other h h'
    exact agrees field value other (gathered.offers h) (gathered.offers h')

theorem Agrees.of_orElse (agrees : Agrees (mapping.orElse later).pairs head) :
    Agrees mapping.pairs head := by
  have more : ∀ {field value}, Offers mapping.pairs head field value →
      Offers (mapping.orElse later).pairs head field value := by
    rintro field value (own | ⟨key, mem, found⟩)
    · exact .inl own
    · exact .inr ⟨key, by simp_all [mem_pairs_iff], found⟩
  exact fun field value other h h' => agrees field value other (more h) (more h')

/-- What is gathered in two promotions is gathered in one. -/
theorem Gathered.trans (first : Gathered mapping.pairs head middle)
    (second : Gathered later.pairs middle next) :
    Gathered (mapping.orElse later).pairs head next := by
  have kept : ∀ field value, head.fields.get? field = some value →
      next.fields.get? field = some value := fun field value own =>
    second.kept field value (first.kept field value own)
  have offered : ∀ field value, next.fields.get? field = some value →
      Offers (mapping.orElse later).pairs head field value := fun field value own =>
    first.offers (second.received field value own).1
  refine ⟨second.typeName.trans first.typeName, fun field foreign =>
    get?_fields_of_foreign foreign (kept field) (offered field), kept, ?_, ?_,
    second.present.trans first.present, fun key => ?_⟩
  · intro field value here
    obtain ⟨found, there, -⟩ := first.exists_offers here
    exact second.complete field found there
  · intro field value own
    refine ⟨offered field value own, fun other here => ?_⟩
    obtain ⟨found, there, equal⟩ := first.exists_offers here
    exact Json.same_trans ((second.received field value own).2 found there) equal
  · rw [second.data, first.data]
    simp only [any_key_pairs, get?_orElse]
    cases mapping.get? key <;> cases later.get? key <;> rfl

/-- Values are gathered in one way only, but for equality. -/
theorem Gathered.beq (one : Gathered pairs head next) (two : Gathered pairs head other) :
    (next == other) = true := by
  refine Head.beq_of_get? (one.typeName.trans two.typeName.symm) (fun field => ?_)
    (one.present.trans two.present.symm) fun key => ?_
  · cases first : next.fields.get? field with
    | none =>
      cases second : other.fields.get? field with
      | none => rfl
      | some value =>
        obtain ⟨found, own⟩ := one.complete field value (two.received field value second).1
        cases first.symm.trans own
    | some value =>
      obtain ⟨offered, equal⟩ := one.received field value first
      obtain ⟨found, own⟩ := two.complete field value offered
      rw [own]
      exact equal found (two.received field found own).1
  · rw [one.data, two.data]
    exact BEq.refl _

end Mapping

/-! ## Runs that come to one promotion -/

namespace Promotion

variable {typeName : String} {mapping later : Mapping} {tree : Node}
  {run rest : Node → Except PromotionError Node}

/-- What is made of a tree comes to the promotion of a type by a mapping: it is made when, in each
node of the type, all values for a field are equal, and then these values have been gathered. -/
structure Gathers (typeName : String) (mapping : Mapping)
    (run : Node → Except PromotionError Node) (tree : Node) : Prop where
  succeeds : (∃ result, run tree = .ok result) ↔
    tree.AllOf typeName (Mapping.Agrees mapping.pairs)
  changes : ∀ result, run tree = .ok result →
    tree.ChangedIn typeName (Mapping.Gathered mapping.pairs) result

theorem gathers_ok (typeName : String) (tree : Node) : Gathers typeName .empty .ok tree where
  succeeds := iff_of_true ⟨tree, rfl⟩ fun _ _ _ _ => Mapping.agrees_nil _
  changes result done := by
    cases done
    exact .refl (fun head => (Mapping.Moved.nil head).gathered (Mapping.agrees_nil head)) tree

theorem gathers_promote (typeName : String)
    (fields : ∀ field ∈ mapping.targets, isBaseKey field = false) (tree : Node) :
    Gathers typeName mapping (fun tree => (promote ⟨typeName, mapping⟩ tree).result) tree where
  succeeds := exists_promote_iff_agrees ⟨typeName, mapping⟩ fields
  changes _ := changedIn_promote

/-- Runs that come to one promotion succeed together, and their results are equal. -/
theorem Gathers.exists_beq (one : Gathers typeName mapping run tree)
    (other : Gathers typeName mapping rest tree) {result : Node} (done : run tree = .ok result) :
    ∃ exchanged, rest tree = .ok exchanged ∧ (result == exchanged) = true := by
  obtain ⟨exchanged, done'⟩ := other.succeeds.2 (one.succeeds.1 ⟨result, done⟩)
  exact ⟨exchanged, done', (one.changes result done).beq (other.changes exchanged done')
    fun _ _ _ => Mapping.Gathered.beq⟩

/-- One run after the other comes to the promotion by both mappings, of which the first one
prevails. -/
theorem Gathers.andThen (first : Gathers typeName mapping run tree)
    (second : ∀ middle, Gathers typeName later rest middle) :
    Gathers typeName (mapping.orElse later) (fun tree => run tree >>= rest) tree := by
  have found : ∀ middle, run tree = .ok middle →
      (middle.AllOf typeName (Mapping.Agrees later.pairs) ↔
        tree.AllOf typeName (Mapping.Agrees (mapping.orElse later).pairs)) := fun middle done =>
    (first.changes middle done).allOf_iff (fun _ _ => Mapping.Gathered.typeName)
      fun _ _ => Mapping.Gathered.agrees_iff
  refine ⟨⟨?_, fun agrees => ?_⟩, fun result done => ?_⟩
  · rintro ⟨result, done⟩
    obtain ⟨middle, up, onward⟩ := Except.bind_eq_ok_iff.1 done
    exact (found middle up).1 ((second middle).succeeds.1 ⟨result, onward⟩)
  · have agrees' : tree.AllOf typeName (Mapping.Agrees mapping.pairs) :=
      fun places node there typed => (agrees places node there typed).of_orElse
    obtain ⟨middle, up⟩ := first.succeeds.2 agrees'
    obtain ⟨result, onward⟩ := (second middle).succeeds.2 ((found middle up).2 agrees)
    exact ⟨result, Except.bind_eq_ok_iff.2 ⟨middle, up, onward⟩⟩
  · obtain ⟨middle, up, onward⟩ := Except.bind_eq_ok_iff.1 done
    exact (first.changes middle up).trans ((second middle).changes result onward)
      (fun _ _ => Mapping.Gathered.typeName) fun _ _ _ => Mapping.Gathered.trans

end Promotion

/-! ## Chains of steps -/

namespace Migrations

variable {migrations : Migrations} {typeName : String} {earlier later version : UInt32}
  {steps : Nat} {tree upgraded : Node}

/-- The fields of the keys of so many steps, the first from the given version. The earliest step
that names a key prevails. -/
def combinedBy (migrations : Migrations) (typeName : String) : (steps : Nat) → UInt32 → Mapping
  | 0, _ => .empty
  | steps + 1, version =>
    ((migrations.mapping? typeName version).getD .empty).orElse
      (migrations.combinedBy typeName steps (version + 1))

/-- The fields of the keys of the steps between two versions. -/
def combined (migrations : Migrations) (typeName : String) (earlier later : UInt32) : Mapping :=
  migrations.combinedBy typeName (later.toNat - earlier.toNat) earlier

/-- There is a step from each version before the later one, from the earlier one on, and no field of
theirs is a base key. -/
structure Complete (migrations : Migrations) (typeName : String) (earlier later : UInt32) :
    Prop where
  steps : ∀ version, earlier ≤ version → version < later →
    ∃ mapping, migrations.mapping? typeName version = some mapping
  fields : ∀ version key field, earlier ≤ version → version < later →
    migrations.Moves typeName version key field → isBaseKey field = false

/-! ### The mapping of a chain -/

theorem get?_step_eq_some_iff {key field : String} :
    ((migrations.mapping? typeName version).getD .empty).get? key = some field ↔
      migrations.Moves typeName version key field := by
  cases step : migrations.mapping? typeName version <;> simp [Moves, step]

theorem Moves.unique {key field other : String} (h : migrations.Moves typeName version key field)
    (h' : migrations.Moves typeName version key other) : field = other :=
  Option.some.inj ((get?_step_eq_some_iff.2 h).symm.trans (get?_step_eq_some_iff.2 h'))

theorem get?_combinedBy_eq_some_iff (versions : version.toNat + steps = later.toNat)
    {key field : String} :
    (migrations.combinedBy typeName steps version).get? key = some field ↔
      ∃ found, version ≤ found ∧ found < later ∧ migrations.Moves typeName found key field ∧
        ∀ before, version ≤ before → before < found →
          ∀ other, ¬migrations.Moves typeName before key other := by
  induction steps generalizing version with
  | zero =>
    obtain rfl : version = later := UInt32.toNat_inj.1 versions
    refine iff_of_false (by simp [combinedBy]) ?_
    rintro ⟨found, start, stop, -⟩
    exact UInt32.lt_irrefl _ (UInt32.lt_of_le_of_lt start stop)
  | succ steps ih =>
    have below : version < later := UInt32.lt_iff_toNat_lt.2 (by omega)
    rw [combinedBy, Mapping.get?_orElse]
    cases first : ((migrations.mapping? typeName version).getD .empty).get? key with
    | some target =>
      have moves := get?_step_eq_some_iff.1 first
      rw [Option.some_or, Option.some.injEq]
      constructor
      · rintro rfl
        exact ⟨version, UInt32.le_refl _, below, moves, fun before start stop =>
          absurd stop (UInt32.not_lt.2 start)⟩
      · rintro ⟨found, start, -, moves', earliest⟩
        by_cases same : version = found
        · exact moves.unique (same ▸ moves')
        · exact absurd moves (earliest version (UInt32.le_refl _) (by grind) target)
    | none =>
      have idle : ∀ other, ¬migrations.Moves typeName version key other := fun other moves => by
        cases first.symm.trans (get?_step_eq_some_iff.2 moves)
      rw [Option.none_or, ih (versions_succ versions)]
      refine exists_congr fun found => ⟨?_, ?_⟩
      · rintro ⟨start, stop, moves, earliest⟩
        refine ⟨by grind, stop, moves, fun before start' stop' other => ?_⟩
        by_cases same : version = before
        · exact same ▸ idle other
        · exact earliest before (by grind) stop' other
      · rintro ⟨start, stop, moves, earliest⟩
        have after : version ≠ found := fun same => idle field (same ▸ moves)
        exact ⟨by grind, stop, moves, fun before start' => earliest before (by grind)⟩

/-- In the mapping of a chain a key has the field of the earliest step that names it. -/
theorem get?_combined_eq_some_iff {key field : String} :
    (migrations.combined typeName earlier later).get? key = some field ↔
      ∃ version, earlier ≤ version ∧ version < later ∧
        migrations.Moves typeName version key field ∧
        ∀ before, earlier ≤ before → before < version →
          ∀ other, ¬migrations.Moves typeName before key other := by
  by_cases forward : earlier ≤ later
  · have order := UInt32.le_iff_toNat_le.1 forward
    exact get?_combinedBy_eq_some_iff (by omega)
  · have none : later.toNat - earlier.toNat = 0 := by
      have order := mt UInt32.le_iff_toNat_le.2 forward
      omega
    rw [combined, none]
    refine iff_of_false (by simp [combinedBy]) ?_
    rintro ⟨version, start, stop, -⟩
    exact forward (UInt32.le_of_lt (UInt32.lt_of_le_of_lt start stop))

/-! ### Runs -/

theorem Reversible.complete (chain : migrations.Reversible typeName earlier later) :
    migrations.Complete typeName earlier later :=
  ⟨chain.steps, chain.fields⟩

theorem Complete.tail (chain : migrations.Complete typeName earlier later)
    (below : earlier < later) : migrations.Complete typeName (earlier + 1) later where
  steps version start := chain.steps version (UInt32.le_of_lt (lt_of_succ_le below start))
  fields version key field start :=
    chain.fields version key field (UInt32.le_of_lt (lt_of_succ_le below start))

/-- A chain begins with a step, and goes on from what it has made. -/
theorem result_upgradeBy_succ {mapping : Mapping}
    (step : migrations.mapping? typeName version = some mapping) (steps : Nat) (tree : Node) :
    (migrations.upgradeBy typeName (steps + 1) version tree).result =
      (Promotion.promote ⟨typeName, mapping⟩ tree).result >>= fun promoted =>
        (migrations.upgradeBy typeName steps (version + 1) promoted).result := by
  rw [result_upgradeBy_eq_make, make, step]

/-- So many steps come to one promotion by their mapping. -/
theorem Complete.upgradeBy (versions : version.toNat + steps = later.toNat)
    (chain : migrations.Complete typeName version later) (tree : Node) :
    Promotion.Gathers typeName (migrations.combinedBy typeName steps version)
      (fun tree => (migrations.upgradeBy typeName steps version tree).result) tree := by
  -- The first step is one promotion, and the steps after it come to one promotion of its result.
  induction steps generalizing version tree with
  | zero => exact Promotion.gathers_ok typeName tree
  | succ steps ih =>
    have below : version < later := UInt32.lt_iff_toNat_lt.2 (by omega)
    have start := UInt32.le_refl version
    obtain ⟨mapping, step⟩ := chain.steps version start below
    have fields : ∀ field ∈ mapping.targets, isBaseKey field = false := by
      intro field mem
      obtain ⟨key, mapped⟩ := Mapping.mem_targets_iff.1 mem
      exact chain.fields version key field start below ⟨mapping, step, mapped⟩
    have union : migrations.combinedBy typeName (steps + 1) version =
        mapping.orElse (migrations.combinedBy typeName steps (version + 1)) := by
      simp [combinedBy, step]
    rw [union, funext (result_upgradeBy_succ step steps)]
    exact (Promotion.gathers_promote typeName fields tree).andThen
      (ih (versions_succ versions) (chain.tail below))

/-- Likewise for an upgrade between two versions. -/
theorem Complete.upgrade (chain : migrations.Complete typeName earlier later) (tree : Node) :
    Promotion.Gathers typeName (migrations.combined typeName earlier later)
      (fun tree => (migrations.upgrade tree typeName earlier later).result) tree := by
  rcases Nat.le_total earlier.toNat later.toNat with forward | backward
  · exact chain.upgradeBy (by omega) tree
  · -- Without a step the versions need not be in order.
    have none : later.toNat - earlier.toNat = earlier.toNat - earlier.toNat := by omega
    have idle : migrations.Complete typeName earlier earlier := ⟨by grind, by grind⟩
    unfold Migrations.upgrade combined
    rw [none]
    exact idle.upgradeBy (by omega) tree

/-- **A chain of promotions is one promotion.** Let there be a step from each version on the way,
none of them to a base key. The one mapping has each key of the steps, with the field of the
earliest one that names it. A tree can be upgraded exactly when it can be promoted by this mapping,
and both results are equal. -/
theorem upgrade_eq_promote_combined (chain : migrations.Complete typeName earlier later)
    (tree : Node) :
    (∀ key field, (migrations.combined typeName earlier later).get? key = some field ↔
        ∃ version, earlier ≤ version ∧ version < later ∧
          migrations.Moves typeName version key field ∧
          ∀ before, earlier ≤ before → before < version →
            ∀ other, ¬migrations.Moves typeName before key other) ∧
      ((∃ upgraded, (migrations.upgrade tree typeName earlier later).result = .ok upgraded) ↔
        ∃ promoted, (Promotion.promote
          ⟨typeName, migrations.combined typeName earlier later⟩ tree).result = .ok promoted) ∧
      ∀ upgraded promoted,
        (migrations.upgrade tree typeName earlier later).result = .ok upgraded →
        (Promotion.promote
          ⟨typeName, migrations.combined typeName earlier later⟩ tree).result = .ok promoted →
        (upgraded == promoted) = true := by
  have fields : ∀ field ∈ (migrations.combined typeName earlier later).targets,
      isBaseKey field = false := by
    intro field mem
    obtain ⟨key, mapped⟩ := Mapping.mem_targets_iff.1 mem
    obtain ⟨version, start, stop, moves, -⟩ := get?_combined_eq_some_iff.1 mapped
    exact chain.fields version key field start stop moves
  obtain ⟨succeeds, changes⟩ := chain.upgrade tree
  refine ⟨fun _ _ => get?_combined_eq_some_iff,
    succeeds.trans (Promotion.exists_promote_iff_agrees ⟨typeName, _⟩ fields).symm, ?_⟩
  intro upgraded promoted done done'
  exact (changes upgraded done).beq (Promotion.changedIn_promote done')
    fun _ _ _ => Mapping.Gathered.beq

/-! ### The sample -/

/-- Both steps name the label. In the one mapping it has the field of the first step. -/
theorem upgrade_eq_promote_combined_boxed :
    Sample.figureSteps.Complete "Figure" 1 3 ∧
      (Sample.figureSteps.combined "Figure" 1 3).get? "label" = some "label" ∧
      (Sample.figureSteps.upgrade Sample.firstBox "Figure" 1 3).result = .ok Sample.thirdBox ∧
      ∃ promoted,
        (Promotion.promote ⟨"Figure", Sample.figureSteps.combined "Figure" 1 3⟩
          Sample.firstBox).result = .ok promoted ∧
        (Sample.thirdBox == promoted) = true := by
  have up : (Sample.figureSteps.upgrade Sample.firstBox "Figure" 1 3).result =
      .ok Sample.thirdBox := by rfl
  have chain := Sample.reversible_figureSteps.complete
  obtain ⟨mapped, succeeds, equal⟩ := upgrade_eq_promote_combined chain Sample.firstBox
  obtain ⟨promoted, done⟩ := succeeds.1 ⟨_, up⟩
  refine ⟨chain, (mapped _ _).2 ?_, up, promoted, done, ?_⟩
  · exact ⟨1, by decide, by decide, ⟨_, rfl, rfl⟩, fun before start stop =>
      absurd stop (UInt32.not_lt.2 start)⟩
  · exact equal _ _ up done

end Migrations
end DocTree
