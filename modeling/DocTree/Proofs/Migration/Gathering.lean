import DocTree.Proofs.Migration.Conflicts
import DocTree.Proofs.Migration.Moves
import Mathlib.Data.List.Induction

/-!
# Promotion in closed form

For a field a head has its own value and those of the keys of the field in `data`. A promotion
gathers them in the field, one entry after the other. It succeeds when they are all equal, in
whatever order they come.

## Main definitions

* `Mapping.Offers` — the values that a head has for a field.
* `Mapping.Agrees` — a head whose values for each field are equal.
* `Mapping.DiffersAt` — the first entry with a value that differs.
* `Mapping.Gathered` — the head of a node before and after a promotion.

## Main statements

* `Mapping.exists_promote_iff` — when a promotion of one head succeeds.
* `Mapping.differsAt_of_promote` — where it ends otherwise.
* `Mapping.Moved.gathered` — what it makes of the head.
* `Promotion.promote_exact` — what it makes of a tree.
-/

namespace DocTree

namespace Mapping

variable {pairs before : List (String × String)} {head middle next : Head} {mapping : Mapping}
  {key field : String} {value : Json} {clash : Clash}

/-! ## Values for a field -/

/-- A value that a head has for a field: its own one, or that of a key of the field in `data`. -/
def Offers (pairs : List (String × String)) (head : Head) (field : String) (value : Json) : Prop :=
  head.fields.get? field = some value ∨
    ∃ key, (key, field) ∈ pairs ∧ head.data.bind (·.get? key) = some value

/-- For each field, all values that a head has for it are equal. -/
def Agrees (pairs : List (String × String)) (head : Head) : Prop :=
  ∀ field value other, Offers pairs head field value → Offers pairs head field other →
    (value == other) = true

/-- The entry is the first one, in their order, whose value in `data` differs from one that the head
has for the field up to there. -/
def DiffersAt (pairs : List (String × String)) (head : Head) (key field : String) : Prop :=
  ∃ before after value other, pairs = before ++ (key, field) :: after ∧ Agrees before head ∧
    head.data.bind (·.get? key) = some value ∧ Offers before head field other ∧
    (other == value) = false

/-- The second head has gathered the values of the first one: a field that had a value keeps it, a
field for which there are values holds one that is equal to all of them, and the keys of the fields
are gone from `data`, which stays if it was there. -/
structure Gathered (pairs : List (String × String)) (head next : Head) : Prop where
  typeName : next.typeName = head.typeName
  others : ∀ field, (∀ key, (key, field) ∉ pairs) →
    next.fields.get? field = head.fields.get? field
  kept : ∀ field value, head.fields.get? field = some value → next.fields.get? field = some value
  complete : ∀ field value, Offers pairs head field value →
    ∃ found, next.fields.get? field = some found
  received : ∀ field value, next.fields.get? field = some value →
    Offers pairs head field value ∧
      ∀ other, Offers pairs head field other → (value == other) = true
  present : next.data.isSome = head.data.isSome
  data : ∀ key, next.data.bind (·.get? key) =
    if pairs.any (·.1 == key) then none else head.data.bind (·.get? key)

theorem offers_nil_iff : Offers [] head field value ↔ head.fields.get? field = some value := by
  simp [Offers]

theorem offers_snoc_iff {target : String} :
    Offers (before ++ [(key, target)]) head field value ↔
      Offers before head field value ∨
        (field = target ∧ head.data.bind (·.get? key) = some value) := by
  simp only [Offers, List.mem_append, List.mem_singleton, Prod.mk.injEq]
  grind

theorem agrees_nil (head : Head) : Agrees [] head := by
  intro field value other own own'
  obtain rfl := Option.some.inj ((offers_nil_iff.1 own).symm.trans (offers_nil_iff.1 own'))
  exact BEq.refl value

/-- One more entry agrees when its value is equal to those that there are for the field. -/
theorem agrees_snoc_iff : Agrees (before ++ [(key, field)]) head ↔
    Agrees before head ∧ ∀ value other, head.data.bind (·.get? key) = some value →
      Offers before head field other → (other == value) = true := by
  simp only [Agrees, offers_snoc_iff]
  constructor
  · intro agrees
    exact ⟨fun field value other h h' => agrees field value other (.inl h) (.inl h'),
      fun value other found h => agrees field other value (.inl h) (.inr ⟨rfl, found⟩)⟩
  · rintro ⟨agrees, equal⟩ target value other (h | ⟨rfl, h⟩) (h' | ⟨same, h'⟩)
    · exact agrees target value other h h'
    · exact equal other value h' (same ▸ h)
    · exact (Json.same_comm _ _).trans (equal value other h h')
    · obtain rfl := Option.some.inj (h.symm.trans h')
      exact BEq.refl value

/-! ## One entry -/

theorem promoteEntry_eq_error_iff : promoteEntry head key field = .error clash ↔
    clash = ⟨key, field⟩ ∧ ∃ value other, head.data.bind (·.get? key) = some value ∧
      head.fields.get? field = some other ∧ (other == value) = false := by
  unfold promoteEntry
  cases data : head.data.bind (·.get? key) with
  | none => simp
  | some value =>
    cases own : head.fields.get? field with
    | none => simp [own]
    | some other =>
      cases same : other == value with
      | true => simp [own, same]
      | false =>
        simp [own, same]
        exact eq_comm

theorem Moved.offers (moved : Moved pairs head next) (h : next.fields.get? field = some value) :
    Offers pairs head field value := by
  rw [moved.fields] at h
  rcases Option.or_eq_some_iff.1 h with own | ⟨-, found⟩
  · exact .inl own
  · exact .inr (moved?_eq_some found)

theorem Moved.exists_of_offers (moved : Moved pairs head next)
    (h : Offers pairs head field value) : ∃ found, next.fields.get? field = some found := by
  rw [← Option.isSome_iff_exists, moved.fields, Option.isSome_or, Bool.or_eq_true]
  rcases h with own | ⟨key, mem, found⟩
  · exact .inl (by simp [own])
  · refine .inr (List.findSome?_isSome_iff.2 ⟨(key, field), mem, ?_⟩)
    simp [found]

/-- After some entries the next one can be moved when its value is equal to those before it. -/
theorem Moved.promoteEntry_eq_error_iff (moved : Moved before head middle)
    (agrees : Agrees before head) (new : ∀ pair ∈ before, pair.1 ≠ key) :
    promoteEntry middle key field = .error clash ↔ clash = ⟨key, field⟩ ∧
      ∃ value other, head.data.bind (·.get? key) = some value ∧ Offers before head field other ∧
        (other == value) = false := by
  have untouched : middle.data.bind (·.get? key) = head.data.bind (·.get? key) := by
    rw [moved.data, get?_rest, if_neg]
    simp only [List.any_eq_true, not_exists, not_and, beq_iff_eq]
    exact new
  rw [Mapping.promoteEntry_eq_error_iff, untouched]
  refine and_congr_right fun _ => exists_congr fun value => ?_
  constructor
  · rintro ⟨other, found, own, differs⟩
    exact ⟨other, found, moved.offers own, differs⟩
  · rintro ⟨other, found, offered, differs⟩
    obtain ⟨own, there⟩ := moved.exists_of_offers offered
    refine ⟨own, found, there, Bool.eq_false_iff.2 fun same => ?_⟩
    have equal := agrees field other own offered (moved.offers there)
    exact Bool.false_ne_true (differs.symm.trans (Json.same_trans equal same))

theorem Moved.exists_promoteEntry_iff (moved : Moved before head middle)
    (agrees : Agrees before head) (new : ∀ pair ∈ before, pair.1 ≠ key) :
    (∃ next, promoteEntry middle key field = .ok next) ↔
      ∀ value other, head.data.bind (·.get? key) = some value →
        Offers before head field other → (other == value) = true := by
  simp only [Except.exists_eq_ok_iff, ne_eq, moved.promoteEntry_eq_error_iff agrees new]
  constructor
  · intro fine value other found offered
    by_contra differs
    exact fine _ ⟨rfl, value, other, found, offered, Bool.eq_false_iff.2 differs⟩
  · rintro equal clash ⟨-, value, other, found, offered, differs⟩
    exact Bool.false_ne_true (differs.symm.trans (equal value other found offered))

/-! ## One head -/

/-- All entries can be moved when the values for each field are equal. -/
theorem exists_foldlM_promoteEntry_iff (distinct : pairs.Pairwise fun a b => a.1 ≠ b.1) :
    (∃ next, pairs.foldlM (fun head pair => promoteEntry head pair.1 pair.2) head = .ok next) ↔
      Agrees pairs head := by
  -- The last entry finds what those before it have gathered.
  induction pairs using List.reverseRecOn with
  | nil => exact iff_of_true ⟨head, rfl⟩ (agrees_nil head)
  | append_singleton before entry ih =>
    obtain ⟨key, field⟩ := entry
    obtain ⟨distinct, new⟩ := distinct_before distinct
    have last : ∀ {middle}, before.foldlM (fun head pair => promoteEntry head pair.1 pair.2) head =
        .ok middle → ((∃ next, promoteEntry middle key field = .ok next) ↔ _) := fun run =>
      (Moved.of_foldlM distinct run).exists_promoteEntry_iff ((ih distinct).1 ⟨_, run⟩) new
    rw [exists_foldlM_snoc_iff, agrees_snoc_iff, ← ih distinct]
    constructor
    · rintro ⟨middle, run, step⟩
      exact ⟨⟨middle, run⟩, (last run).1 step⟩
    · rintro ⟨⟨middle, run⟩, equal⟩
      exact ⟨middle, run, (last run).2 equal⟩

/-- A promotion of one head succeeds when its values for each field are equal. -/
theorem exists_promote_iff :
    (∃ moved, mapping.promote head = .ok moved) ↔ Agrees mapping.pairs head :=
  (exists_guarded_iff fun nothing => ⟨head, foldlM_promoteEntry_of_absent nothing⟩).trans
    (exists_foldlM_promoteEntry_iff mapping.pairs_distinct)

/-- Otherwise it ends at the first entry whose value differs. -/
theorem differsAt_of_promote (h : mapping.promote head = .error clash) :
    DiffersAt mapping.pairs head clash.dataKey clash.field := by
  have run := (guarded_eq_error_iff fun nothing =>
    ⟨head, foldlM_promoteEntry_of_absent nothing⟩).1 h
  obtain ⟨before, key, field, after, middle, split, done, failed⟩ := foldlM_eq_error_iff.1 run
  have distinct := mapping.pairs_distinct
  rw [split] at distinct
  obtain ⟨distinct, new⟩ := distinct_before distinct
  have agrees := (exists_foldlM_promoteEntry_iff distinct).1 ⟨middle, done⟩
  obtain ⟨rfl, value, other, found, offered, differs⟩ :=
    ((Moved.of_foldlM distinct done).promoteEntry_eq_error_iff agrees new).1 failed
  exact ⟨before, after, value, other, split, agrees, found, offered, differs⟩

/-- A field without keys is as it was, when values are kept and none come from elsewhere. -/
theorem get?_fields_of_foreign (foreign : ∀ key, (key, field) ∉ pairs)
    (kept : ∀ value, head.fields.get? field = some value → next.fields.get? field = some value)
    (offered : ∀ value, next.fields.get? field = some value → Offers pairs head field value) :
    next.fields.get? field = head.fields.get? field := by
  refine Option.ext fun value => ⟨fun found => ?_, kept value⟩
  rcases offered value found with own | ⟨key, mem, -⟩
  · exact own
  · exact absurd mem (foreign key)

/-- What a promotion makes of a head whose values for each field are equal. -/
theorem Moved.gathered (moved : Moved pairs head next) (agrees : Agrees pairs head) :
    Gathered pairs head next := by
  have kept : ∀ field value, head.fields.get? field = some value →
      next.fields.get? field = some value := fun field value own => by simp [moved.fields, own]
  exact {
    typeName := moved.typeName
    others := fun field foreign =>
      get?_fields_of_foreign foreign (kept field) fun _ => moved.offers
    kept
    complete := fun _ _ => moved.exists_of_offers
    received := fun field value found => ⟨moved.offers found, fun other offered =>
      agrees field value other (moved.offers found) offered⟩
    present := by rw [moved.data, isSome_rest]
    data := fun key => by rw [moved.data, get?_rest] }

end Mapping

/-! ## Whole trees -/

namespace Promotion

variable {promotion : Promotion} {tree promoted : Node}

theorem changedIn_moved (h : (promotion.promote tree).result = .ok promoted) :
    tree.ChangedIn promotion.typeName (fun head next =>
      Mapping.Moved promotion.mapping.pairs head next ∧
        Mapping.Agrees promotion.mapping.pairs head) promoted := by
  obtain ⟨rfl, goes, -⟩ := run_eq_ok h
  refine ⟨_, rfl, fun places node there => ⟨fun typed => ?_, after_of_ne⟩⟩
  have ok := goes places node there typed
  exact ⟨moved_after typed ok, Mapping.exists_promote_iff.1 ok⟩

/-- A promotion succeeds when, in each node of the type, all values for a field are equal. -/
theorem exists_promote_iff_agrees (promotion : Promotion)
    (fields : ∀ field ∈ promotion.mapping.targets, isBaseKey field = false) :
    (∃ promoted, (promotion.promote tree).result = .ok promoted) ↔
      tree.AllOf promotion.typeName (Mapping.Agrees promotion.mapping.pairs) :=
  exists_run_iff .promotionAborted (fun _ => Mapping.exists_promote_iff) fields

/-- A promotion that succeeds has gathered the values in all nodes of the type. -/
theorem changedIn_promote (h : (promotion.promote tree).result = .ok promoted) :
    tree.ChangedIn promotion.typeName (Mapping.Gathered promotion.mapping.pairs) promoted :=
  (changedIn_moved h).mono fun _ _ changed => changed.1.gathered changed.2

/-- **Promotion in closed form.** A mapping to a base key is rejected, in whatever tree. With any
other mapping a promotion succeeds exactly when, in each node of the type, all values that there are
for a field are equal: its own one, and those of the keys of the field in `data`, if any. Then each
node of the type has gathered its values, and all else is as it was. Otherwise the promotion ends
with a conflict, at the path of the first node of the type, in post-order, where the values are not
all equal, and with the first key, in the order of keys, whose value differs. It never fails in the
rewriting. -/
theorem promote_exact (promotion : Promotion) (tree : Node) :
    (∀ field ∈ promotion.mapping.targets, isBaseKey field = true →
        ∃ first ∈ promotion.mapping.targets, isBaseKey first = true ∧
          (promotion.promote tree).result =
            .error (.undeclaredField promotion.typeName first)) ∧
      (∀ e, (promotion.promote tree).result ≠ .error (.rewriting e)) ∧
      ((∀ field ∈ promotion.mapping.targets, isBaseKey field = false) →
        ((∃ promoted, (promotion.promote tree).result = .ok promoted) ↔
            tree.AllOf promotion.typeName (Mapping.Agrees promotion.mapping.pairs)) ∧
          (∀ promoted, (promotion.promote tree).result = .ok promoted →
            tree.ChangedIn promotion.typeName (Mapping.Gathered promotion.mapping.pairs)
              promoted) ∧
          (¬tree.AllOf promotion.typeName (Mapping.Agrees promotion.mapping.pairs) →
            ∃ located key field,
              promotion.EndsAt (Mapping.Agrees promotion.mapping.pairs) tree located ∧
              Mapping.DiffersAt promotion.mapping.pairs located.node.head key field ∧
              (promotion.promote tree).result =
                .error (.conflict promotion.typeName key field located.path))) := by
  refine ⟨fun field mem base => run_of_base _ _ tree mem base, fun e failed => ?_, fun fields => ?_⟩
  · rcases run_eq_error failed with ⟨_, _, _, same⟩ | ⟨_, _, _, same⟩ <;> cases same
  · refine ⟨exists_promote_iff_agrees promotion fields, fun _ => changedIn_promote, fun unfit => ?_⟩
    obtain ⟨located, clash, ends, failed, result⟩ :=
      run_eq_conflict .promotionAborted (fun _ => Mapping.exists_promote_iff) fields unfit
    exact ⟨located, _, _, ends, Mapping.differsAt_of_promote failed, result⟩

end Promotion

/-! ## The sample -/

namespace Sample

/-- A promotion of labels, which two keys of `data` may hold. -/
def labelled : Promotion :=
  { typeName := "Figure", mapping := .ofPairs [("label", "label"), ("title", "label")] }

/-- A promotion to a key that is no field. -/
def misplaced : Promotion := { typeName := "Figure", mapping := .ofPairs [("kids", "children")] }

/-- A figure with a label in a figure with another one, each twice: under both keys, and in the
field and under one key. -/
def nestedFigures (inner outer : String) : Node :=
  .container
    { typeName := "Figure"
      fields := KeyMap.empty.insert "label" (.string "a")
      data := some ((KeyMap.empty.insert "title" (.string outer)).insert "note" .null) }
    [ .empty
        { typeName := "Figure"
          data :=
            some ((KeyMap.empty.insert "label" (.string "b")).insert "title" (.string inner)) } ]

/-- The figures with their labels in place. -/
def gatheredFigures : Node :=
  .container
    { typeName := "Figure"
      fields := KeyMap.empty.insert "label" (.string "a")
      data := some (KeyMap.empty.insert "note" .null) }
    [ .empty
        { typeName := "Figure"
          fields := KeyMap.empty.insert "label" (.string "b")
          data := some .empty } ]

end Sample

namespace Promotion

/-- Labels that are equal are gathered. When they differ in both figures, the conflict is that of
the inner one. A promotion to `children` is rejected, also where there is no figure. -/
theorem promote_exact_figures :
    (∀ field ∈ Sample.labelled.mapping.targets, isBaseKey field = false) ∧
      (Sample.labelled.promote (Sample.nestedFigures "b" "a")).result =
        .ok Sample.gatheredFigures ∧
      (Sample.nestedFigures "b" "a").AllOf "Figure" (Mapping.Agrees Sample.labelled.mapping.pairs) ∧
      (∃ located, located.path = .ofPlaces [0] ∧
        Sample.labelled.EndsAt (Mapping.Agrees Sample.labelled.mapping.pairs)
          (Sample.nestedFigures "c" "d") located ∧
        Mapping.DiffersAt Sample.labelled.mapping.pairs located.node.head "title" "label") ∧
      "children" ∈ Sample.misplaced.mapping.targets ∧ isBaseKey "children" = true ∧
      (Sample.misplaced.promote (.empty { typeName := "Box" })).result =
        .error (.undeclaredField "Figure" "children") := by
  have fields : ∀ field ∈ Sample.labelled.mapping.targets, isBaseKey field = false := by decide
  have done : (Sample.labelled.promote (Sample.nestedFigures "b" "a")).result =
      .ok Sample.gatheredFigures := by rfl
  have failed : (Sample.labelled.promote (Sample.nestedFigures "c" "d")).result =
      .error (.conflict "Figure" "title" "label" (.ofPlaces [0])) := by rfl
  have mem : "children" ∈ Sample.misplaced.mapping.targets := by decide
  obtain ⟨-, -, exact⟩ := promote_exact Sample.labelled (Sample.nestedFigures "b" "a")
  obtain ⟨-, -, exact'⟩ := promote_exact Sample.labelled (Sample.nestedFigures "c" "d")
  obtain ⟨rejects, -, -⟩ := promote_exact Sample.misplaced (.empty { typeName := "Box" })
  refine ⟨fields, done, (exact fields).1.1 ⟨_, done⟩, ?_, mem, by decide, ?_⟩
  · have unfit := mt (exact' fields).1.2 (by simp [failed])
    obtain ⟨located, key, field, ends, differs, result⟩ := (exact' fields).2.2 unfit
    have same := Except.error.inj (failed.symm.trans result)
    injection same with _ key field path
    subst key field
    exact ⟨located, path.symm, ends, differs⟩
  · obtain ⟨first, found, -, result⟩ := rejects "children" mem (by decide)
    obtain rfl : first = "children" := List.mem_singleton.1 found
    exact result

end Promotion
end DocTree
