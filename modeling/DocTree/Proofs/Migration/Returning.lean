import DocTree.Proofs.Migration.Conflicts
import DocTree.Proofs.Migration.Demotion
import Mathlib.Data.List.Induction

/-!
# Demotion in closed form

A demotion returns each field of a mapping to `data`, under the least of its keys. It succeeds when
these keys are free there, or hold what the fields hold.

## Main definitions

* `Mapping.LeastKey` — the key that a demotion uses for a field.
* `Mapping.ClashesAt`, `Mapping.Returnable` — a field that cannot be returned, and heads without
  one.
* `Mapping.Returned` — the head of a node before and after a demotion.

## Main statements

* `Mapping.exists_demote_iff` — when a demotion of one head succeeds.
* `Mapping.clashesAt_of_demote` — where it ends otherwise.
* `Mapping.Demoted.returned` — what it makes of the head.
* `Promotion.demote_exact` — what it makes of a tree.
-/

namespace DocTree

namespace Mapping

variable {pairs before : List (String × String)} {head middle next : Head} {mapping : Mapping}
  {key field : String} {clash : Clash}

/-! ## Definitions -/

/-- The key is the least one that is mapped to the field. -/
def LeastKey (mapping : Mapping) (key field : String) : Prop :=
  mapping.get? key = some field ∧ ∀ other, mapping.get? other = some field → ¬other < key

/-- A head has the field, and its `data` holds a value under the least key of the field that
differs from that of the field. -/
def ClashesAt (mapping : Mapping) (head : Head) (key field : String) : Prop :=
  mapping.LeastKey key field ∧ ∃ value other, head.fields.get? field = some value ∧
    head.data.bind (·.get? key) = some other ∧ (other == value) = false

/-- All mapped fields of a head can be returned to its `data`. -/
def Returnable (mapping : Mapping) (head : Head) : Prop :=
  ∀ key field, ¬mapping.ClashesAt head key field

/-- The second head is the first one after its mapped fields have been returned: they are gone, and
`data`, which is there if it was before or there was such a field, holds the value of each of them
under its least key, or had one there that is equal. It holds what it held before, and nothing
besides. -/
structure Returned (mapping : Mapping) (head next : Head) : Prop where
  typeName : next.typeName = head.typeName
  fields : ∀ field, next.fields.get? field =
    if mapping.pairs.any (·.2 == field) then none else head.fields.get? field
  kept : ∀ key value, head.data.bind (·.get? key) = some value →
    next.data.bind (·.get? key) = some value
  returned : ∀ key field value, mapping.LeastKey key field →
    head.fields.get? field = some value →
      ∃ found, next.data.bind (·.get? key) = some found ∧ (found == value) = true
  received : ∀ key value, head.data.bind (·.get? key) = none →
    next.data.bind (·.get? key) = some value →
      ∃ field, mapping.LeastKey key field ∧ head.fields.get? field = some value
  present : next.data.isSome = true ↔ head.data.isSome = true ∨
    ∃ key field, mapping.get? key = some field ∧ (head.fields.get? field).isSome = true

/-! ## One entry -/

theorem demoteEntry_eq_error_iff : demoteEntry head key field = .error clash ↔
    clash = ⟨key, field⟩ ∧ ∃ value other, head.fields.get? field = some value ∧
      head.data.bind (·.get? key) = some other ∧ (other == value) = false := by
  unfold demoteEntry
  cases own : head.fields.get? field with
  | none => simp
  | some value =>
    rw [← get?_getD_empty]
    cases there : (head.data.getD .empty).get? key with
    | none => simp [there]
    | some other =>
      cases same : other == value with
      | true => simp [there, same]
      | false =>
        simp [there, same]
        exact eq_comm

theorem keyOf?_append (pairs more : List (String × String)) (field : String) :
    keyOf? (pairs ++ more) field = (keyOf? pairs field).or (keyOf? more field) := by
  simp [keyOf?, List.find?_append, Option.map_or]

theorem keyOf?_eq_none_iff : keyOf? pairs field = none ↔ pairs.any (·.2 == field) = false := by
  simp [keyOf?]

/-- After some entries the next one can be moved unless it is the first one of its field, and
clashes with what `data` held. -/
theorem Demoted.demoteEntry_eq_error_iff (demoted : Demoted before head middle)
    (new : ∀ pair ∈ before, pair.1 ≠ key) :
    demoteEntry middle key field = .error clash ↔ clash = ⟨key, field⟩ ∧
      keyOf? before field = none ∧ ∃ value other, head.fields.get? field = some value ∧
        head.data.bind (·.get? key) = some other ∧ (other == value) = false := by
  have unmoved : before.lookup key = none := by
    rw [List.lookup_eq_none_iff]
    grind
  have untouched : middle.data.bind (·.get? key) = head.data.bind (·.get? key) := by
    simp [demoted.data, returned?, unmoved]
  rw [Mapping.demoteEntry_eq_error_iff, untouched, demoted.fields, get?_unmapped,
    keyOf?_eq_none_iff]
  cases before.any (·.2 == field) <;> simp

theorem Demoted.exists_demoteEntry_iff (demoted : Demoted before head middle)
    (new : ∀ pair ∈ before, pair.1 ≠ key) :
    (∃ next, demoteEntry middle key field = .ok next) ↔
      (keyOf? before field = none → ∀ value other, head.fields.get? field = some value →
        head.data.bind (·.get? key) = some other → (other == value) = true) := by
  simp only [Except.exists_eq_ok_iff, ne_eq, demoted.demoteEntry_eq_error_iff new]
  constructor
  · intro fine first value other own there
    by_contra differs
    exact fine _ ⟨rfl, first, value, other, own, there, Bool.eq_false_iff.2 differs⟩
  · rintro equal clash ⟨-, first, value, other, own, there, differs⟩
    exact Bool.false_ne_true (differs.symm.trans (equal first value other own there))

/-! ## One head -/

/-- All entries can be moved when the first key of each field is free or holds the same value. -/
theorem exists_foldlM_demoteEntry_iff (distinct : pairs.Pairwise fun a b => a.1 ≠ b.1) :
    (∃ next, pairs.foldlM (fun head pair => demoteEntry head pair.1 pair.2) head = .ok next) ↔
      ∀ key field value other, keyOf? pairs field = some key →
        head.fields.get? field = some value → head.data.bind (·.get? key) = some other →
          (other == value) = true := by
  -- The last entry moves nothing when its field has an earlier key.
  induction pairs using List.reverseRecOn with
  | nil => exact iff_of_true ⟨head, rfl⟩ (by simp [keyOf?])
  | append_singleton before entry ih =>
    obtain ⟨key, field⟩ := entry
    obtain ⟨distinct, new⟩ := distinct_before distinct
    have last : ∀ {middle}, before.foldlM (fun head pair => demoteEntry head pair.1 pair.2) head =
        .ok middle → ((∃ next, demoteEntry middle key field = .ok next) ↔ _) := fun run =>
      (Demoted.of_foldlM distinct run).exists_demoteEntry_iff new
    rw [exists_foldlM_snoc_iff]
    simp only [keyOf?_append]
    constructor
    · rintro ⟨middle, run, step⟩ target name value other first own there
      rcases Option.or_eq_some_iff.1 first with earlier | ⟨none, here⟩
      · exact (ih distinct).1 ⟨middle, run⟩ target name value other earlier own there
      · obtain ⟨rfl, rfl⟩ : field = name ∧ key = target := by simpa [keyOf?_cons, keyOf?] using here
        exact (last run).1 step none value other own there
    · intro equal
      obtain ⟨middle, run⟩ := (ih distinct).2 fun target name value other first =>
        equal target name value other (by simp [first])
      exact ⟨middle, run, (last run).2 fun none value other =>
        equal key field value other (by simp [none, keyOf?_cons])⟩

theorem returnable_iff : mapping.Returnable head ↔
    ∀ key field value other, keyOf? mapping.pairs field = some key →
      head.fields.get? field = some value → head.data.bind (·.get? key) = some other →
        (other == value) = true := by
  simp only [Returnable, ClashesAt, LeastKey, keyOf?_pairs_eq_some_iff]
  grind

/-- A demotion of one head succeeds when no field clashes. -/
theorem exists_demote_iff :
    (∃ moved, mapping.demote head = .ok moved) ↔ mapping.Returnable head :=
  ((exists_guarded_iff fun nothing => ⟨head, foldlM_demoteEntry_of_absent nothing⟩).trans
    (exists_foldlM_demoteEntry_iff mapping.pairs_distinct)).trans returnable_iff.symm

/-- Into `data` without mapped keys all fields can be returned. -/
theorem returnable_of_vacant (vacant : ∀ key field, mapping.get? key = some field →
    head.data.bind (·.get? key) = none) : mapping.Returnable head := by
  rintro key field ⟨⟨mapped, -⟩, value, other, -, there, -⟩
  cases (vacant key field mapped).symm.trans there

/-- Otherwise it ends at the least key of a field that clashes. -/
theorem clashesAt_of_demote (h : mapping.demote head = .error clash) :
    mapping.ClashesAt head clash.dataKey clash.field ∧
      ∀ key field, key < clash.dataKey → ¬mapping.ClashesAt head key field := by
  have run := (guarded_eq_error_iff fun nothing => ⟨head, foldlM_demoteEntry_of_absent nothing⟩).1 h
  obtain ⟨before, key, field, after, middle, split, done, failed⟩ := foldlM_eq_error_iff.1 run
  have distinct := mapping.pairs_distinct
  have ordered : mapping.pairs.Pairwise fun a b => a.1 < b.1 := mapping.fields.ordered
  rw [split] at distinct ordered
  obtain ⟨distinct, new⟩ := distinct_before distinct
  obtain ⟨-, suffix, -⟩ := List.pairwise_append.1 ordered
  obtain ⟨rfl, first, value, other, own, there, differs⟩ :=
    ((Demoted.of_foldlM distinct done).demoteEntry_eq_error_iff new).1 failed
  have least : keyOf? mapping.pairs field = some key := by
    simp [split, keyOf?_append, first, keyOf?_cons]
  refine ⟨⟨keyOf?_pairs_eq_some_iff.1 least, value, other, own, there, differs⟩, ?_⟩
  rintro source name below ⟨least, value, other, own, there, differs⟩
  have firstKey := keyOf?_pairs_eq_some_iff.2 least
  rw [split, keyOf?_append] at firstKey
  rcases Option.or_eq_some_iff.1 firstKey with earlier | ⟨-, later⟩
  · have equal :=
      (exists_foldlM_demoteEntry_iff distinct).1 ⟨middle, done⟩ _ _ _ _ earlier own there
    exact Bool.false_ne_true (differs.symm.trans equal)
  · -- A key that does not come before is not below.
    obtain ⟨mem, -⟩ := (keyOf?_eq_some_iff suffix).1 later
    rcases List.mem_cons.1 mem with same | mem
    · cases same
      exact String.lt_irrefl _ below
    · exact String.lt_asymm below ((List.pairwise_cons.1 suffix).1 _ mem)

/-- What a demotion makes of a head without clashes. -/
theorem Demoted.returned (demoted : Demoted mapping.pairs head next)
    (returnable : mapping.Returnable head) : mapping.Returned head next where
  typeName := demoted.typeName
  fields field := by rw [demoted.fields, get?_unmapped]
  kept key value there := by simp [demoted.data, there]
  returned key field value least own := by
    have back : returned? mapping.pairs head.fields key = some value := by
      have mapped : mapping.pairs.lookup key = some field := least.1
      simp [returned?, mapped, keyOf?_pairs_eq_some_iff.2 least, own]
    cases there : head.data.bind (·.get? key) with
    | none => exact ⟨value, by simp [demoted.data, there, back], BEq.refl value⟩
    | some other =>
      refine ⟨other, by simp [demoted.data, there], ?_⟩
      by_contra differs
      exact returnable key field
        ⟨least, value, other, own, there, Bool.eq_false_iff.2 differs⟩
  received key value absent there := by
    rw [demoted.data, absent, Option.none_or] at there
    obtain ⟨field, mapped, found⟩ := Option.bind_eq_some_iff.1 there
    split at found
    · rename_i first
      exact ⟨field, keyOf?_pairs_eq_some_iff.1 first, found⟩
    · cases found
  present := by
    simp [demoted.present, mem_pairs_iff, KeyMap.contains]

end Mapping

/-! ## Whole trees -/

namespace Promotion

variable {promotion : Promotion} {tree demoted : Node}

theorem changedIn_demoted (h : (promotion.demote tree).result = .ok demoted) :
    tree.ChangedIn promotion.typeName (fun head next =>
      Mapping.Demoted promotion.mapping.pairs head next ∧ promotion.mapping.Returnable head)
      demoted := by
  obtain ⟨rfl, goes, -⟩ := run_eq_ok h
  refine ⟨_, rfl, fun places node there => ⟨fun typed => ?_, after_of_ne⟩⟩
  have ok := goes places node there typed
  exact ⟨demoted_after typed ok, Mapping.exists_demote_iff.1 ok⟩

/-- A demotion that succeeds has returned the fields of all nodes of the type. -/
theorem changedIn_demote (h : (promotion.demote tree).result = .ok demoted) :
    tree.ChangedIn promotion.typeName promotion.mapping.Returned demoted :=
  (changedIn_demoted h).mono fun _ _ changed => changed.1.returned changed.2

/-- **Demotion in closed form.** A demotion succeeds exactly when no node of the type has a field
whose least key holds a value in `data` that differs from that of the field. Then each node of the
type has returned its mapped fields to `data`, without loss, and all else is as it was. Otherwise
the demotion ends with a conflict, at the path of the first node of the type, in post-order, that
has such a field, and with the least key that clashes there. -/
theorem demote_exact {promotion : Promotion}
    (fields : ∀ field ∈ promotion.mapping.targets, isBaseKey field = false) (tree : Node) :
    ((∃ demoted, (promotion.demote tree).result = .ok demoted) ↔
        tree.AllOf promotion.typeName promotion.mapping.Returnable) ∧
      (∀ demoted, (promotion.demote tree).result = .ok demoted →
        tree.ChangedIn promotion.typeName promotion.mapping.Returned demoted) ∧
      (¬tree.AllOf promotion.typeName promotion.mapping.Returnable →
        ∃ located key field, promotion.EndsAt promotion.mapping.Returnable tree located ∧
          promotion.mapping.ClashesAt located.node.head key field ∧
          (∀ other target, other < key →
            ¬promotion.mapping.ClashesAt located.node.head other target) ∧
          (promotion.demote tree).result =
            .error (.conflict promotion.typeName key field located.path)) := by
  have fits : ∀ head, (∃ moved, promotion.mapping.demote head = .ok moved) ↔
      promotion.mapping.Returnable head := fun _ => Mapping.exists_demote_iff
  refine ⟨exists_run_iff _ fits fields, fun _ => changedIn_demote, fun unfit => ?_⟩
  obtain ⟨located, clash, ends, failed, result⟩ := run_eq_conflict _ fits fields unfit
  obtain ⟨clashes, first⟩ := Mapping.clashesAt_of_demote failed
  exact ⟨located, _, _, ends, clashes, first, result⟩

end Promotion

/-! ## The sample -/

namespace Sample

/-- A demotion of captions and labels, where two keys are mapped to labels. -/
def unlabelled : Promotion :=
  { typeName := "Figure"
    mapping := .ofPairs [("caption", "caption"), ("label", "label"), ("title", "label")] }

/-- A figure with a label and a caption around one with a label only. The outer one has the label in
`data` already. -/
def framedFigures (label : String) : Node :=
  .container
    { typeName := "Figure"
      fields := (KeyMap.empty.insert "label" (.string "a")).insert "caption" (.string "c")
      data := some ((KeyMap.empty.insert "label" (.string label)).insert "title" .null) }
    [.empty { typeName := "Figure", fields := KeyMap.empty.insert "label" (.string "b") }]

/-- The figures with their fields in `data`. -/
def returnedFigures : Node :=
  .container
    { typeName := "Figure"
      data := some (((KeyMap.empty.insert "label" (.string "a")).insert "title" .null).insert
        "caption" (.string "c")) }
    [ .empty
        { typeName := "Figure", data := some (KeyMap.empty.insert "label" (.string "b")) } ]

end Sample

namespace Promotion

/-- Fields are returned to `data` where their least keys are free or hold the same values, and the
outer figure cannot return a label when `data` has another one. -/
theorem demote_exact_figures :
    (∀ field ∈ Sample.unlabelled.mapping.targets, isBaseKey field = false) ∧
      (Sample.unlabelled.demote (Sample.framedFigures "a")).result = .ok Sample.returnedFigures ∧
      (Sample.framedFigures "a").ChangedIn "Figure" Sample.unlabelled.mapping.Returned
        Sample.returnedFigures ∧
      ∃ located, located.path = .root ∧
        Sample.unlabelled.EndsAt Sample.unlabelled.mapping.Returnable (Sample.framedFigures "d")
          located ∧
        Sample.unlabelled.mapping.ClashesAt located.node.head "label" "label" := by
  have fields : ∀ field ∈ Sample.unlabelled.mapping.targets, isBaseKey field = false := by decide
  have done : (Sample.unlabelled.demote (Sample.framedFigures "a")).result =
      .ok Sample.returnedFigures := by rfl
  have failed : (Sample.unlabelled.demote (Sample.framedFigures "d")).result =
      .error (.conflict "Figure" "label" "label" .root) := by rfl
  obtain ⟨-, changed, -⟩ := demote_exact fields (Sample.framedFigures "a")
  obtain ⟨exact, -, ended⟩ := demote_exact fields (Sample.framedFigures "d")
  obtain ⟨located, key, field, ends, clashes, -, result⟩ := ended (mt exact.2 (by simp [failed]))
  injection Except.error.inj (failed.symm.trans result) with _ key field path
  subst key field
  exact ⟨fields, done, changed _ done, located, path.symm, ends, clashes⟩

end Promotion
end DocTree
