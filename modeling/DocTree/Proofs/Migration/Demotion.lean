import DocTree.Proofs.Migration.Passes

/-!
# What demotion moves

A demotion that succeeds takes the mapped fields away and puts the value of each under the first key
of the field, where `data` has none yet, in the nodes of one type, and changes nothing else.

## Main definitions

* `Mapping.keyOf?` — the first key of a field.
* `Mapping.returned?` — the value that a demotion has for a key.
* `Mapping.Demoted` — the head of a node before and after a demotion.

## Main statements

* `Mapping.keyOf?_eq_some_iff` — the first key of a field is the least one.
* `Mapping.Demoted.of_demote` — what a demotion makes of one head.
-/

namespace DocTree

namespace Mapping

variable {pairs : List (String × String)} {head middle next : Head}

/-! ## Keys of fields -/

/-- The first key of a field. -/
def keyOf? (pairs : List (String × String)) (field : String) : Option String :=
  (pairs.find? fun pair => pair.2 == field).map (·.1)

theorem keyOf?_cons (key target field : String) (pairs : List (String × String)) :
    keyOf? ((key, target) :: pairs) field =
      if target = field then some key else keyOf? pairs field := by
  by_cases same : target = field <;> simp [keyOf?, same]

/-- The first key of a field is the least one, when the keys are in order. -/
theorem keyOf?_eq_some_iff (ordered : pairs.Pairwise fun a b => a.1 < b.1) {key field : String} :
    keyOf? pairs field = some key ↔
      (key, field) ∈ pairs ∧ ∀ other, (other, field) ∈ pairs → ¬other < key := by
  induction pairs with
  | nil => simp [keyOf?]
  | cons first pairs ih =>
    obtain ⟨source, target⟩ := first
    obtain ⟨above, ordered⟩ := List.pairwise_cons.1 ordered
    rw [keyOf?_cons]
    split
    · rename_i same
      subst same
      constructor
      · intro found
        obtain rfl := Option.some.inj found
        refine ⟨List.mem_cons_self, fun other mem => ?_⟩
        rcases List.mem_cons.1 mem with same | later
        · cases same
          exact String.lt_irrefl _
        · exact String.lt_asymm (above _ later)
      · rintro ⟨mem, least⟩
        rcases List.mem_cons.1 mem with same | later
        · cases same
          rfl
        · exact absurd (above _ later) (least source List.mem_cons_self)
    · rename_i other
      have elsewhere : ∀ key, (key, field) ∈ (source, target) :: pairs ↔ (key, field) ∈ pairs := by
        intro key
        simp [Ne.symm other]
      simp only [ih ordered, elsewhere]

theorem keyOf?_pairs_eq_some_iff {mapping : Mapping} {key field : String} :
    keyOf? mapping.pairs field = some key ↔ mapping.get? key = some field ∧
      ∀ other, mapping.get? other = some field → ¬other < key := by
  have ordered : mapping.pairs.Pairwise fun a b => a.1 < b.1 := mapping.fields.ordered
  rw [keyOf?_eq_some_iff ordered]
  simp only [mem_pairs_iff]

/-! ## One entry -/

/-- What is left of fields when those of pairs are taken away. -/
def unmapped (pairs : List (String × String)) (fields : KeyMap Json) : KeyMap Json :=
  fields.filter fun field _ => !pairs.any (·.2 == field)

/-- The value that a demotion has for a key: that of its field, when it is the first key of it. -/
def returned? (pairs : List (String × String)) (fields : KeyMap Json) (key : String) :
    Option Json :=
  (pairs.lookup key).bind fun field =>
    if keyOf? pairs field = some key then fields.get? field else none

/-- The second head is the first one after the values of the fields have been put into `data`, each
under the first key of its field, unless `data` had it already. -/
structure Demoted (pairs : List (String × String)) (head next : Head) : Prop where
  typeName : next.typeName = head.typeName
  fields : next.fields = unmapped pairs head.fields
  data : ∀ key, next.data.bind (·.get? key) =
    (head.data.bind (·.get? key)).or (returned? pairs head.fields key)
  present : next.data.isSome =
    (head.data.isSome || pairs.any fun pair => head.fields.contains pair.2)

theorem get?_unmapped (fields : KeyMap Json) (field : String) :
    (unmapped pairs fields).get? field =
      if pairs.any (·.2 == field) then none else fields.get? field := by
  rw [unmapped, KeyMap.get?_filter]
  cases pairs.any (·.2 == field) <;> rfl

theorem unmapped_nil (fields : KeyMap Json) : unmapped [] fields = fields :=
  KeyMap.ext_get? fun field => by simp [get?_unmapped]

theorem unmapped_cons (key field : String) (pairs : List (String × String))
    (fields : KeyMap Json) :
    unmapped ((key, field) :: pairs) fields = unmapped pairs (fields.erase field) := by
  apply KeyMap.ext_get?
  intro target
  by_cases same : target = field
  · simp [get?_unmapped, same]
  · have other : (field == target) = false := beq_eq_false_iff_ne.2 (Ne.symm same)
    rw [get?_unmapped, get?_unmapped, KeyMap.get?_erase, if_neg same, List.any_cons, other,
      Bool.false_or]

/-- The first pair returns the value of its field, and the others what is left. -/
theorem returned?_cons {key field : String} (other : ∀ pair ∈ pairs, pair.1 ≠ key)
    (fields : KeyMap Json) (target : String) :
    returned? ((key, field) :: pairs) fields target =
      if target = key then fields.get? field else returned? pairs (fields.erase field) target := by
  unfold returned?
  by_cases same : target = key
  · subst same
    simp [keyOf?_cons]
  · have later : ((key, field) :: pairs).lookup target = pairs.lookup target := by
      rw [List.lookup_cons, beq_eq_false_iff_ne.2 same]
    rw [later, if_neg same]
    refine congrArg _ (funext fun found => ?_)
    rw [keyOf?_cons, KeyMap.get?_erase]
    by_cases here : field = found
    · simp [here, Ne.symm same]
    · simp [here, Ne.symm here]

/-! ## One head -/

theorem Demoted.nil (head : Head) : Demoted [] head head where
  typeName := rfl
  fields := (unmapped_nil _).symm
  data key := by simp [returned?]
  present := by simp

/-- To demote entries is to demote the first one, and then the others. -/
theorem Demoted.cons {key field : String} (other : ∀ pair ∈ pairs, pair.1 ≠ key)
    (first : Demoted [(key, field)] head middle) (later : Demoted pairs middle next) :
    Demoted ((key, field) :: pairs) head next := by
  have fields : middle.fields = head.fields.erase field := by
    rw [first.fields, unmapped_cons, unmapped_nil]
  refine ⟨later.typeName.trans first.typeName, ?_, ?_, ?_⟩
  · rw [later.fields, fields, unmapped_cons]
  · intro target
    rw [later.data, first.data, fields, returned?_cons other,
      returned?_cons (List.forall_mem_nil _), Option.or_assoc]
    by_cases same : target = key
    · have absent : pairs.lookup target = none := List.lookup_eq_none_iff.2 fun pair mem =>
        bne_iff_ne.2 (same ▸ Ne.symm (other pair mem))
      simp [same, returned?, same ▸ absent]
    · simp [same, returned?]
  · rw [later.present, first.present]
    cases here : head.fields.contains field with
    | true => simp [here]
    | false =>
      have unchanged : middle.fields = head.fields := by
        rw [fields, KeyMap.erase_of_absent (KeyMap.contains_eq_false_iff.1 here)]
      simp [here, unchanged]

theorem get?_getD_empty (data : Option (KeyMap Json)) (key : String) :
    (data.getD .empty).get? key = data.bind (·.get? key) := by
  cases data <;> rfl

theorem Demoted.of_demoteEntry {key field : String}
    (h : demoteEntry head key field = .ok next) : Demoted [(key, field)] head next := by
  have left : unmapped [(key, field)] head.fields = head.fields.erase field := by
    rw [unmapped_cons, unmapped_nil]
  unfold demoteEntry at h
  split at h
  · rename_i absent
    cases h
    refine ⟨rfl, by rw [left, KeyMap.erase_of_absent absent], fun target => ?_, ?_⟩
    · rw [returned?_cons (List.forall_mem_nil _)]
      simp [absent, returned?]
    · simp [KeyMap.contains, absent]
  · rename_i value present
    dsimp only at h
    split at h
    · rename_i vacant
      cases h
      refine ⟨rfl, left.symm, fun target => ?_, by simp [KeyMap.contains, present]⟩
      rw [get?_getD_empty] at vacant
      rw [returned?_cons (List.forall_mem_nil _)]
      by_cases same : target = key
      · simp [same, vacant, present]
      · simp [same, KeyMap.get?_insert, get?_getD_empty, returned?]
    · rename_i existing occupied
      split at h
      · cases h
        refine ⟨rfl, left.symm, fun target => ?_, by simp [KeyMap.contains, present]⟩
        rw [get?_getD_empty] at occupied
        rw [returned?_cons (List.forall_mem_nil _)]
        by_cases same : target = key
        · simp [same, occupied, get?_getD_empty]
        · simp [same, get?_getD_empty, returned?]
      · cases h

theorem Demoted.of_foldlM (distinct : pairs.Pairwise fun a b => a.1 ≠ b.1)
    (h : pairs.foldlM (fun head pair => demoteEntry head pair.1 pair.2) head = .ok next) :
    Demoted pairs head next :=
  foldlM_induction .nil .of_demoteEntry .cons distinct h

/-- Where there is no mapped field, nothing is moved. -/
theorem foldlM_demoteEntry_of_absent {mapping : Mapping}
    (absent : ¬mapping.targets.any head.fields.contains = true) :
    mapping.pairs.foldlM (fun head pair => demoteEntry head pair.1 pair.2) head = .ok head := by
  refine foldlM_of_fixed fun pair mem => ?_
  have nothing : head.fields.get? pair.2 = none := by
    simp only [List.any_eq_true, not_exists, not_and, Bool.not_eq_true] at absent
    exact KeyMap.contains_eq_false_iff.1 (absent pair.2 (List.mem_map_of_mem mem))
  simp [demoteEntry, nothing]

/-- What a demotion makes of one head. When there is nothing to move it is left as it is. -/
theorem Demoted.of_demote {mapping : Mapping} {moved : Option Head}
    (h : mapping.demote head = .ok moved) : Demoted mapping.pairs head (moved.getD head) :=
  .of_foldlM mapping.pairs_distinct (getD_of_guarded h foldlM_demoteEntry_of_absent)

/-- A value that a demotion has for a key is that of a field. -/
theorem returned?_eq_some {fields : KeyMap Json} {key : String} {value : Json}
    (h : returned? pairs fields key = some value) : ∃ field, fields.get? field = some value := by
  obtain ⟨field, -, found⟩ := Option.bind_eq_some_iff.1 h
  split at found
  · exact ⟨field, found⟩
  · cases found

theorem Demoted.get?_fields (demoted : Demoted pairs head next) {field : String} {value : Json}
    (h : next.fields.get? field = some value) :
    head.fields.get? field = some value ∧ ∀ key, (key, field) ∉ pairs := by
  rw [demoted.fields, get?_unmapped] at h
  split at h
  · cases h
  · rename_i unmapped
    exact ⟨h, fun key mem => unmapped (List.any_eq_true.2 ⟨_, mem, beq_self_eq_true field⟩)⟩

theorem Demoted.unshadowed (demoted : Demoted pairs head next) (h : head.Unshadowed) :
    next.Unshadowed := by
  intro key base
  rw [demoted.fields, get?_unmapped, h key base]
  split <;> rfl

theorem Demoted.canonical (demoted : Demoted pairs head next) (h : head.Canonical) :
    next.Canonical where
  fields field value found := h.fields field value (demoted.get?_fields found).1
  data data whole := by
    apply Json.canonical_ofMap_iff.2
    intro key value found
    have here : next.data.bind (·.get? key) = some value := by rw [whole]; exact found
    rw [demoted.data] at here
    rcases Option.or_eq_some_iff.1 here with before | ⟨-, returned⟩
    · obtain ⟨map, old, present⟩ := Option.bind_eq_some_iff.1 before
      exact Json.canonical_ofMap_iff.1 (h.data map old) key value present
    · obtain ⟨field, present⟩ := returned?_eq_some returned
      exact h.fields field value present

end Mapping

/-! ## Whole trees -/

namespace Promotion

variable {promotion : Promotion}

theorem demoted_after {head : Head} (typed : head.typeName = promotion.typeName)
    (ok : ∃ moved, promotion.mapping.demote head = .ok moved) :
    Mapping.Demoted promotion.mapping.pairs head
      (promotion.after promotion.mapping.demote head) := by
  obtain ⟨moved, ok⟩ := ok
  rw [after, if_pos typed, ok]
  exact .of_demote ok

theorem typeName_after_demote (promotion : Promotion) (head : Head) :
    (promotion.after promotion.mapping.demote head).typeName = head.typeName := by
  by_cases typed : head.typeName = promotion.typeName
  · rw [after, if_pos typed]
    cases result : promotion.mapping.demote head with
    | error clash => rfl
    | ok moved => exact (Mapping.Demoted.of_demote result).typeName
  · rw [after_of_ne typed]

/-- A demotion keeps a tree tidy. -/
theorem tidy_demote {tree demoted : Node} (tidy : tree.Tidy)
    (h : (promotion.demote tree).result = .ok demoted) : demoted.Tidy := by
  obtain ⟨rfl, goes, -⟩ := run_eq_ok h
  refine tidy.mapHeads fun places found there neat => ?_
  by_cases typed : found.typeName = promotion.typeName
  · have moved := demoted_after typed (goes places found there typed)
    exact ⟨moved.unshadowed neat.unshadowed, moved.canonical neat.canonical⟩
  · rw [after_of_ne typed]
    exact ⟨neat.unshadowed, neat.canonical⟩

end Promotion
end DocTree
