import DocTree.Proofs.Migration.Conflicts
import DocTree.Proofs.Migration.Steps

/-!
# Ranges of versions

The upgrade of a tree, its downgrade and the question for a path go through the versions of the same
half-open range, the downgrade from its far end. So the answer to the question tells beforehand
whether a step will be missed, whatever the tree.

## Main definitions

* `Migrations.versions` — the versions of a range.
* `Migrations.ofRegistrations` — the steps that have been registered in turn.
* `Migrations.Breaks` — a chain ends at a version without a step, or at a step before one.
* `Migrations.Foretold` — what the answer to the question for a path tells.

## Main statements

* `Migrations.result_upgrade`, `Migrations.result_downgrade`, `Migrations.hasPath_eq_all` — the
  three ways through a range.
* `Migrations.exists_breaks` — a chain with a gap breaks on every tree.
* `Migrations.hasPath_foretells` — what the answer tells, after any registrations.
-/

namespace DocTree
namespace Migrations

variable {low high version : UInt32} {steps : Nat}

/-! ## Ranges -/

/-- The versions from one version on, and before another one. -/
def versions (low high : UInt32) : List UInt32 :=
  (List.range' low.toNat (high.toNat - low.toNat)).map UInt32.ofNat

theorem min_max_of_le {one other : UInt32} (forward : one ≤ other) :
    min one other = one ∧ max one other = other :=
  ⟨if_pos forward, if_pos forward⟩

theorem min_max_of_lt {one other : UInt32} (backward : other < one) :
    min one other = other ∧ max one other = one :=
  ⟨if_neg (UInt32.not_le.2 backward), if_neg (UInt32.not_le.2 backward)⟩

theorem min_le_max (one other : UInt32) : min one other ≤ max one other := by
  by_cases forward : one ≤ other
  · rwa [(min_max_of_le forward).1, (min_max_of_le forward).2]
  · have backward := UInt32.not_le.1 forward
    rw [(min_max_of_lt backward).1, (min_max_of_lt backward).2]
    exact UInt32.le_of_lt backward

/-- No number of a range is too large for a version. -/
theorem map_toNat_versions (low high : UInt32) :
    (versions low high).map UInt32.toNat = List.range' low.toNat (high.toNat - low.toNat) := by
  rw [versions, List.map_map]
  refine (List.map_congr_left fun number mem => ?_).trans (List.map_id _)
  have bound := high.toNat_lt
  obtain ⟨start, below⟩ := List.mem_range'_1.1 mem
  exact UInt32.toNat_ofNat_of_lt' (by omega : number < 4294967296)

theorem versions_of_le (h : high ≤ low) : versions low high = [] := by
  rw [versions, Nat.sub_eq_zero_of_le (UInt32.le_iff_toNat_le.1 h)]
  rfl

theorem mem_versions_iff : version ∈ versions low high ↔ low ≤ version ∧ version < high := by
  have numbers : version ∈ versions low high ↔
      version.toNat ∈ (versions low high).map UInt32.toNat := by
    simp [UInt32.toNat_inj]
  rw [numbers, map_toNat_versions, List.mem_range'_1, UInt32.le_iff_toNat_le,
    UInt32.lt_iff_toNat_lt]
  omega

theorem versions_eq_cons (below : low < high) :
    versions low high = low :: versions (low + 1) high := by
  have order := UInt32.lt_iff_toNat_lt.1 below
  apply (List.map_inj_right fun _ _ => UInt32.toNat_inj.1).1
  rw [List.map_cons, map_toNat_versions, map_toNat_versions, toNat_succ below,
    show high.toNat - low.toNat = high.toNat - (low.toNat + 1) + 1 by omega, List.range'_succ]

theorem toNat_pred (below : low < high) : (high - 1).toNat = high.toNat - 1 := by
  have order := UInt32.lt_iff_toNat_lt.1 below
  have one : (1 : UInt32).toNat = 1 := rfl
  exact UInt32.toNat_sub_of_le high 1 (UInt32.le_iff_toNat_le.2 (by omega))

theorem versions_eq_concat (below : low < high) :
    versions low high = versions low (high - 1) ++ [high - 1] := by
  have order := UInt32.lt_iff_toNat_lt.1 below
  apply (List.map_inj_right fun _ _ => UInt32.toNat_inj.1).1
  rw [List.map_append, map_toNat_versions, map_toNat_versions, List.map_singleton, toNat_pred below,
    show high.toNat - low.toNat = high.toNat - 1 - low.toNat + 1 by omega, List.range'_concat,
    Nat.one_mul]
  congr
  omega

variable {migrations : Migrations} {typeName : String}
  {move : Promotion → Node → Noted (Except PromotionError Node)}

/-! ## Ways through a range -/

theorem result_upgradeBy (order : version.toNat + steps = high.toNat) (tree : Node) :
    (migrations.upgradeBy typeName steps version tree).result =
      (versions version high).foldlM (migrations.make typeName Promotion.promote) tree := by
  induction steps generalizing version tree with
  | zero =>
    rw [versions_of_le (UInt32.le_iff_toNat_le.2 (by omega))]
    rfl
  | succ steps ih =>
    rw [versions_eq_cons (UInt32.lt_iff_toNat_lt.2 (by omega)), List.foldlM_cons,
      result_upgradeBy_eq_make]
    exact bind_congr (ih (versions_succ order))

/-- An upgrade goes up through the versions of its range. -/
theorem result_upgrade (tree : Node) (earlier later : UInt32) :
    (migrations.upgrade tree typeName earlier later).result =
      (versions earlier later).foldlM (migrations.make typeName Promotion.promote) tree := by
  rcases UInt32.le_total earlier later with forward | backward
  · have order := UInt32.le_iff_toNat_le.1 forward
    exact result_upgradeBy (by omega) tree
  · rw [versions_of_le backward, upgrade, Nat.sub_eq_zero_of_le (UInt32.le_iff_toNat_le.1 backward)]
    rfl

theorem result_downgradeBy (order : low.toNat + steps = version.toNat) (tree : Node) :
    (migrations.downgradeBy typeName steps version tree).result =
      (versions low version).reverse.foldlM (migrations.make typeName Promotion.demote) tree := by
  induction steps generalizing version tree with
  | zero =>
    rw [versions_of_le (UInt32.le_iff_toNat_le.2 (by omega))]
    rfl
  | succ steps ih =>
    have below : low < version := UInt32.lt_iff_toNat_lt.2 (by omega)
    have pred := toNat_pred below
    rw [versions_eq_concat below, List.reverse_append, List.reverse_singleton,
      List.singleton_append, List.foldlM_cons, result_downgradeBy_eq_make]
    exact bind_congr (ih (by omega))

/-- A downgrade goes down through the versions of its range. -/
theorem result_downgrade (tree : Node) (later earlier : UInt32) :
    (migrations.downgrade tree typeName later earlier).result =
      (versions earlier later).reverse.foldlM (migrations.make typeName Promotion.demote) tree := by
  rcases UInt32.le_total earlier later with backward | forward
  · have order := UInt32.le_iff_toNat_le.1 backward
    exact result_downgradeBy (by omega) tree
  · rw [versions_of_le forward, downgrade,
      Nat.sub_eq_zero_of_le (UInt32.le_iff_toNat_le.1 forward)]
    rfl

theorem hasSteps_eq_all (order : version.toNat + steps = high.toNat) :
    migrations.hasSteps typeName steps version =
      (versions version high).all fun version => (migrations.mapping? typeName version).isSome := by
  induction steps generalizing version with
  | zero =>
    rw [versions_of_le (UInt32.le_iff_toNat_le.2 (by omega))]
    rfl
  | succ steps ih =>
    rw [versions_eq_cons (UInt32.lt_iff_toNat_lt.2 (by omega)), List.all_cons, hasSteps,
      ih (versions_succ order)]

/-- There is a path when there is a step from each version between the lower and the higher one. -/
theorem hasPath_eq_all (one other : UInt32) :
    migrations.hasPath typeName one other =
      (versions (min one other) (max one other)).all fun version =>
        (migrations.mapping? typeName version).isSome := by
  have order := UInt32.le_iff_toNat_le.1 (min_le_max one other)
  exact hasSteps_eq_all (by omega)

/-- A range in either direction lies between the lower and the higher version. -/
theorem mem_between {one other : UInt32}
    (mem : version ∈ versions one other ∨ version ∈ versions other one) :
    version ∈ versions (min one other) (max one other) := by
  rcases mem with mem | mem
  · obtain ⟨start, stop⟩ := mem_versions_iff.1 mem
    have forward := UInt32.le_of_lt (UInt32.lt_of_le_of_lt start stop)
    rwa [(min_max_of_le forward).1, (min_max_of_le forward).2]
  · obtain ⟨start, stop⟩ := mem_versions_iff.1 mem
    have backward := UInt32.lt_of_le_of_lt start stop
    rwa [(min_max_of_lt backward).1, (min_max_of_lt backward).2]

/-- On a path there is a step from each version of the range, in either direction. -/
theorem exists_mapping?_of_hasPath {one other : UInt32}
    (path : migrations.hasPath typeName one other = true)
    (mem : version ∈ versions one other ∨ version ∈ versions other one) :
    ∃ mapping, migrations.mapping? typeName version = some mapping := by
  rw [hasPath_eq_all] at path
  exact Option.isSome_iff_exists.1 (List.all_eq_true.1 path version (mem_between mem))

/-! ## Chains with and without gaps -/

/-- A chain ends at a version without a step, or at a step that cannot be made before it gets to
one. -/
inductive Breaks (migrations : Migrations) (typeName : String)
    (move : Promotion → Node → Noted (Except PromotionError Node)) :
    Node → List UInt32 → PromotionError → Prop
  | missing {version : UInt32} (rest : List UInt32) (tree : Node)
      (unknown : migrations.mapping? typeName version = none) :
      Breaks migrations typeName move tree (version :: rest) (.missingStep typeName version)
  | failed {version gap : UInt32} {rest : List UInt32} {tree : Node} {mapping : Mapping}
      {e : PromotionError} (known : migrations.mapping? typeName version = some mapping)
      (failed : (move ⟨typeName, mapping⟩ tree).result = .error e) (ahead : gap ∈ rest)
      (unknown : migrations.mapping? typeName gap = none) :
      Breaks migrations typeName move tree (version :: rest) e
  | later {version : UInt32} {rest : List UInt32} {tree moved : Node} {mapping : Mapping}
      {e : PromotionError} (known : migrations.mapping? typeName version = some mapping)
      (made : (move ⟨typeName, mapping⟩ tree).result = .ok moved)
      (goesOn : Breaks migrations typeName move moved rest e) :
      Breaks migrations typeName move tree (version :: rest) e

/-- A chain with a gap breaks on every tree. -/
theorem exists_breaks {range : List UInt32} {gap : UInt32} (mem : gap ∈ range)
    (unknown : migrations.mapping? typeName gap = none) (tree : Node) :
    ∃ e, range.foldlM (migrations.make typeName move) tree = .error e ∧
      Breaks migrations typeName move tree range e := by
  induction range generalizing tree with
  | nil => cases mem
  | cons version rest ih =>
    rw [List.foldlM_cons]
    cases known : migrations.mapping? typeName version with
    | none => exact ⟨_, by rw [make, known]; rfl, .missing rest tree known⟩
    | some mapping =>
      -- There is a step from this version, so the gap lies ahead, whether the step is made or not.
      have ahead : gap ∈ rest := by
        refine (List.mem_cons.1 mem).resolve_left ?_
        rintro rfl
        cases known.symm.trans unknown
      have step : migrations.make typeName move tree version =
          (move ⟨typeName, mapping⟩ tree).result := by
        rw [make, known]
      rw [step]
      cases made : (move ⟨typeName, mapping⟩ tree).result with
      | error e => exact ⟨e, rfl, .failed known made ahead unknown⟩
      | ok moved =>
        obtain ⟨e, failed, breaks⟩ := ih ahead moved
        exact ⟨e, failed, .later known made breaks⟩

/-- Where there is a step from each version, none is missing. -/
theorem foldlM_make_ne_missingStep
    (moves : ∀ promotion tree name gap,
      (move promotion tree).result ≠ .error (.missingStep name gap))
    {range : List UInt32}
    (path : ∀ version ∈ range, ∃ mapping, migrations.mapping? typeName version = some mapping)
    (tree : Node) (name : String) (gap : UInt32) :
    range.foldlM (migrations.make typeName move) tree ≠ .error (.missingStep name gap) := by
  induction range generalizing tree with
  | nil => exact nofun
  | cons version rest ih =>
    obtain ⟨⟨mapping, known⟩, path⟩ := List.forall_mem_cons.1 path
    rw [List.foldlM_cons, make, known]
    dsimp only
    cases made : (move ⟨typeName, mapping⟩ tree).result with
    | error e => exact fun same => moves _ tree name gap (made.trans same)
    | ok moved => exact ih path moved

/-! ## Registered steps -/

/-- The steps that have been registered in turn. -/
def ofRegistrations (registrations : List ((String × UInt32) × Mapping)) : Migrations :=
  registrations.foldl (fun migrations step => (migrations.add step.1.1 step.1.2 step.2).result) {}

/-- The mapping that was last registered for the step of a type from a version. There is no step
from the last version. -/
def registered? (registrations : List ((String × UInt32) × Mapping)) (typeName : String)
    (version : UInt32) : Option Mapping :=
  if version = lastVersion then none else registrations.reverse.lookup (typeName, version)

theorem mapping?_add (migrations : Migrations) (name : String) (since : UInt32) (added : Mapping) :
    (migrations.add name since added).result.mapping? typeName version =
      if (typeName, version) = (name, since) ∧ since ≠ lastVersion then some added
      else migrations.mapping? typeName version := by
  unfold add
  by_cases last : since = lastVersion
  · simp [last]
  · rw [if_neg last]
    by_cases same : (typeName, version) = (name, since)
    · simp [mapping?, same, last]
    · have others : (migrations.steps.filter fun step => step.1 ≠ (name, since)).lookup
          (typeName, version) = migrations.steps.lookup (typeName, version) := by
        induction migrations.steps with
        | nil => rfl
        | cons first rest ih => grind
      simp only [mapping?, List.lookup_cons, beq_eq_false_iff_ne.2 same, same, false_and, if_false]
      exact others

theorem mapping?_foldl_add (registrations : List ((String × UInt32) × Mapping))
    (migrations : Migrations) :
    (registrations.foldl (fun migrations step =>
        (migrations.add step.1.1 step.1.2 step.2).result) migrations).mapping? typeName version =
      (registered? registrations typeName version).or (migrations.mapping? typeName version) := by
  induction registrations generalizing migrations with
  | nil => simp [registered?]
  | cons step registrations ih =>
    rw [List.foldl_cons, ih, mapping?_add, registered?, registered?, List.reverse_cons,
      List.lookup_append]
    grind

theorem mapping?_ofRegistrations (registrations : List ((String × UInt32) × Mapping)) :
    (ofRegistrations registrations).mapping? typeName version =
      registered? registrations typeName version :=
  (mapping?_foldl_add registrations {}).trans (Option.or_none ..)

/-- There is no step from the last version, and none that was not registered. -/
theorem registered?_eq_none_iff {registrations : List ((String × UInt32) × Mapping)} :
    registered? registrations typeName version = none ↔
      version = lastVersion ∨ ∀ mapping, ((typeName, version), mapping) ∉ registrations := by
  unfold registered?
  split
  · rename_i last
    exact iff_of_true rfl (.inl last)
  · rename_i notLast
    rw [or_iff_right notLast, List.lookup_eq_none_iff]
    constructor
    · exact fun apart mapping mem => bne_iff_ne.1 (apart _ (List.mem_reverse.2 mem)) rfl
    · rintro absent ⟨step, mapping⟩ mem
      refine bne_iff_ne.2 ?_
      rintro rfl
      exact absent mapping (List.mem_reverse.1 mem)

/-! ## What the answer tells -/

/-- What the answer to the question for a path between two versions tells. -/
structure Foretold (migrations : Migrations) (typeName : String) (one other : UInt32) : Prop where
  /-- An upgrade goes through the range in order. -/
  ascends : ∀ tree, (migrations.upgrade tree typeName one other).result =
    (versions one other).foldlM (migrations.make typeName Promotion.promote) tree
  /-- A downgrade goes through it in the opposite order. -/
  descends : ∀ tree, (migrations.downgrade tree typeName one other).result =
    (versions other one).reverse.foldlM (migrations.make typeName Promotion.demote) tree
  /-- The question for a path goes through it whichever version is the lower one. -/
  asks : migrations.hasPath typeName one other =
    (versions (min one other) (max one other)).all fun version =>
      (migrations.mapping? typeName version).isSome
  /-- The versions of the range are the numbers from the lower to the higher version. -/
  numbers : (versions (min one other) (max one other)).map UInt32.toNat =
    List.range' (min one other).toNat ((max one other).toNat - (min one other).toNat)
  /-- Each of them has a next version, which is told when its step is missing. -/
  next : ∀ version ∈ versions (min one other) (max one other),
    (version + 1).toNat = version.toNat + 1 ∧
      (PromotionError.missingStep typeName version).message = "No promotion registered for " ++
        typeName ++ " from version " ++ version.toNat.repr ++ " to " ++ (version.toNat + 1).repr
  /-- On a path no step is missing. -/
  never : migrations.hasPath typeName one other = true → ∀ tree name gap,
    (migrations.upgrade tree typeName one other).result ≠ .error (.missingStep name gap) ∧
      (migrations.downgrade tree typeName one other).result ≠ .error (.missingStep name gap)
  /-- Without a path, an upgrade breaks on every tree. -/
  upward : migrations.hasPath typeName one other = false → one < other → ∀ tree, ∃ e,
    (migrations.upgrade tree typeName one other).result = .error e ∧
      migrations.Breaks typeName Promotion.promote tree (versions one other) e
  /-- Without a path, a downgrade breaks on every tree. -/
  downward : migrations.hasPath typeName one other = false → other < one → ∀ tree, ∃ e,
    (migrations.downgrade tree typeName one other).result = .error e ∧
      migrations.Breaks typeName Promotion.demote tree (versions other one).reverse e

theorem ne_lastVersion (below : version < high) : version ≠ lastVersion := by
  rintro rfl
  have order := UInt32.lt_iff_toNat_lt.1 below
  have bound := high.toNat_lt
  have last : lastVersion.toNat = 4294967295 := by decide
  omega

/-- The next version of one that is not the last is told. -/
theorem message_missingStep (below : version < high) :
    (PromotionError.missingStep typeName version).message = "No promotion registered for " ++
      typeName ++ " from version " ++ version.toNat.repr ++ " to " ++ (version.toNat + 1).repr := by
  rw [← toNat_succ below]
  unfold PromotionError.message
  dsimp only
  rw [if_neg (ne_lastVersion below)]

/-- Without a path, there is a gap between the lower and the higher version. -/
theorem exists_gap {one other : UInt32} (broken : migrations.hasPath typeName one other = false) :
    ∃ gap ∈ versions (min one other) (max one other), migrations.mapping? typeName gap = none := by
  rw [hasPath_eq_all, List.all_eq_false] at broken
  obtain ⟨gap, mem, unknown⟩ := broken
  exact ⟨gap, mem, Option.not_isSome_iff_eq_none.1 unknown⟩

theorem foretold (migrations : Migrations) (typeName : String) (one other : UInt32) :
    migrations.Foretold typeName one other where
  ascends tree := result_upgrade tree one other
  descends tree := result_downgrade tree one other
  asks := hasPath_eq_all one other
  numbers := map_toNat_versions _ _
  next version mem :=
    have below := (mem_versions_iff.1 mem).2
    ⟨toNat_succ below, message_missingStep below⟩
  never path tree name gap := by
    rw [result_upgrade, result_downgrade]
    constructor
    · refine foldlM_make_ne_missingStep (fun _ _ _ _ => Promotion.run_ne_missingStep) ?_ tree name
        gap
      exact fun version mem => exists_mapping?_of_hasPath path (.inl mem)
    · refine foldlM_make_ne_missingStep (fun _ _ _ _ => Promotion.run_ne_missingStep) ?_ tree name
        gap
      exact fun version mem => exists_mapping?_of_hasPath path (.inr (List.mem_reverse.1 mem))
  upward broken forward tree := by
    obtain ⟨gap, mem, unknown⟩ := exists_gap broken
    rw [(min_max_of_le (UInt32.le_of_lt forward)).1, (min_max_of_le (UInt32.le_of_lt forward)).2]
      at mem
    rw [result_upgrade]
    exact exists_breaks mem unknown tree
  downward broken backward tree := by
    obtain ⟨gap, mem, unknown⟩ := exists_gap broken
    rw [(min_max_of_lt backward).1, (min_max_of_lt backward).2] at mem
    rw [result_downgrade]
    exact exists_breaks (List.mem_reverse.2 mem) unknown tree

/-- **A path foretells upgrades and downgrades.** After any registrations, the known step from a
version is the one that was last registered for it, where the last version has none. An upgrade, a
downgrade and the question for a path go through the same versions, none of which is too large. On
a path, neither an upgrade nor a downgrade misses a step. Without one, an upgrade to the higher
version and a downgrade to the lower one end on every tree, with the first version that has no step,
or at a step before it. -/
theorem hasPath_foretells (registrations : List ((String × UInt32) × Mapping)) (typeName : String)
    (one other : UInt32) :
    (∀ version, (ofRegistrations registrations).mapping? typeName version =
        registered? registrations typeName version) ∧
      (∀ version, registered? registrations typeName version = none ↔
        version = lastVersion ∨ ∀ mapping, ((typeName, version), mapping) ∉ registrations) ∧
      (ofRegistrations registrations).Foretold typeName one other :=
  ⟨fun _ => mapping?_ofRegistrations registrations, fun _ => registered?_eq_none_iff,
    foretold _ typeName one other⟩

end Migrations

/-! ## The sample -/

namespace Sample

/-- Images got alternative texts in their second version and sources in the third one. The step from
the last version is registered in vain. -/
def imageSteps : List ((String × UInt32) × Mapping) :=
  [(("Image", 1), .ofPairs [("alt", "alt")]), (("Image", 2), .ofPairs [("src", "src")]),
    (("Image", lastVersion), .ofPairs [("alt", "alt")])]

end Sample

namespace Migrations

/-- Images can be brought back from the third version to the first one, and no image can be brought
to the last version. -/
theorem hasPath_foretells_images :
    (ofRegistrations Sample.imageSteps).hasPath "Image" 3 1 = true ∧
      (∀ tree name gap, ((ofRegistrations Sample.imageSteps).downgrade tree "Image" 3 1).result ≠
        .error (.missingStep name gap)) ∧
      (ofRegistrations Sample.imageSteps).hasPath "Image" lastVersion (lastVersion - 1) = false ∧
      ∀ tree, ((ofRegistrations Sample.imageSteps).upgrade tree "Image" (lastVersion - 1)
        lastVersion).result = .error (.missingStep "Image" (lastVersion - 1)) := by
  have path : (ofRegistrations Sample.imageSteps).hasPath "Image" 3 1 = true := by decide
  obtain ⟨-, -, back⟩ := hasPath_foretells Sample.imageSteps "Image" 3 1
  obtain ⟨-, -, ahead⟩ := hasPath_foretells Sample.imageSteps "Image" (lastVersion - 1) lastVersion
  refine ⟨path, fun tree name gap => (back.never path tree name gap).2, by decide, fun tree => ?_⟩
  have range : versions (lastVersion - 1) lastVersion = [lastVersion - 1] := by decide
  obtain ⟨e, failed, breaks⟩ := ahead.upward (by decide) (by decide) tree
  rw [range] at breaks
  cases breaks with
  | missing => exact failed
  | failed _ _ ahead => cases ahead
  | later _ _ goesOn => cases goesOn

end Migrations
end DocTree
