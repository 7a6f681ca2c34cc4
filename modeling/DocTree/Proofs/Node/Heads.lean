import DocTree.Proofs.Node.Equality

/-!
# Trees with changed heads

Trees that differ in their heads only are equal when their heads are, and heads are equal when they
have equal values under all keys.

## Main definitions

* `Node.AllOf` — what holds of the heads of one type.
* `Node.ChangedIn` — a tree before and after the heads of one type have been changed.

## Main statements

* `KeyMap.beq_of_get?` — maps with equal values under all keys are equal.
* `Node.ChangedIn.allOf_iff` — what holds of the heads after a change.
* `Node.ChangedIn.trans` — one change after the other.
* `Node.ChangedIn.beq` — changes that make equal heads make equal trees.
* `Node.ChangedIn.eq_iff` — changes that lead back.
-/

namespace DocTree

/-! ## Maps and heads -/

namespace KeyMap

variable {α : Type} [BEq α]

theorem beq_of_lookup {xs ys : List (String × α)} (keys : xs.map (·.1) = ys.map (·.1))
    (distinct : (xs.map (·.1)).Nodup) (values : ∀ key, (xs.lookup key == ys.lookup key) = true) :
    (xs == ys) = true := by
  induction xs generalizing ys with
  | nil => cases ys <;> simp_all
  | cons x xs ih =>
    obtain ⟨key, value⟩ := x
    cases ys with
    | nil => simp at keys
    | cons y ys =>
      obtain ⟨key', value'⟩ := y
      obtain ⟨rfl, later⟩ : key = key' ∧ xs.map (·.1) = ys.map (·.1) := by simpa using keys
      obtain ⟨new, distinct⟩ := List.nodup_cons.1 distinct
      have here : (value == value') = true := by simpa using values key
      have rest : (xs == ys) = true := ih later distinct fun other => by
        by_cases same : other = key
        -- Behind its own entry a key has no other one, in neither of the maps.
        · subst same
          have absent : ∀ zs : List (String × α),
              other ∉ zs.map (·.1) → zs.lookup other = none := by
            intro zs notMem
            rw [List.lookup_eq_none_iff]
            grind
          rw [absent xs new, absent ys (later ▸ new)]
          rfl
        · have := values other
          rwa [List.lookup_cons, List.lookup_cons, beq_eq_false_iff_ne.2 same] at this
      change ((key == key && value == value') && xs == ys) = true
      simp [here, rest]

/-- Maps with equal values under all keys are equal. -/
theorem beq_of_get? {m n : KeyMap α} (h : ∀ key, (m.get? key == n.get? key) = true) :
    (m == n) = true :=
  beq_of_lookup (keys_congr fun key => isSome_of_beq (h key)) m.keys_nodup h

end KeyMap

/-- Heads of one type with equal fields and equal `data`, under all keys, are equal. -/
theorem Head.beq_of_get? {x y : Head} (typeName : x.typeName = y.typeName)
    (fields : ∀ field, (x.fields.get? field == y.fields.get? field) = true)
    (present : x.data.isSome = y.data.isSome)
    (data : ∀ key, (x.data.bind (·.get? key) == y.data.bind (·.get? key)) = true) :
    (x == y) = true := by
  change (x.typeName == y.typeName && x.fields == y.fields && x.data == y.data) = true
  have same : (x.data == y.data) = true := by
    cases first : x.data <;> cases second : y.data <;> simp [first, second] at present data ⊢
    exact KeyMap.beq_of_get? data
  simp [typeName, KeyMap.beq_of_get? fields, same]

theorem Head.present_of_beq {x y : Head} (h : (x == y) = true) : x.data.isSome = y.data.isSome :=
  isSome_of_beq (Bool.and_eq_true_iff.1 h).2

namespace Node

/-! ## Trees -/

theorem sameAll_map {f g : Node → Node} {nodes : List Node}
    (h : ∀ node ∈ nodes, (f node == g node) = true) :
    sameAll (nodes.map f) (nodes.map g) = true := by
  induction nodes with
  | nil => rfl
  | cons node nodes ih =>
    obtain ⟨here, later⟩ := List.forall_mem_cons.1 h
    exact Bool.and_eq_true_iff.2 ⟨here, ih later⟩

/-- Trees whose heads are changed are equal when their heads become equal. -/
theorem beq_mapHeads {f g : Head → Head} {node : Node}
    (h : ∀ places found, node.at? places = some found → (f found.head == g found.head) = true) :
    (node.mapHeads f == node.mapHeads g) = true := by
  induction node using inductChildren with
  | step node ih =>
    obtain ⟨here, below⟩ :=
      (forall_at?_iff (P := fun _ found => (f found.head == g found.head) = true)).1 h
    cases node with
    | container head children =>
      have all : sameAll (children.map (mapHeads f)) (children.map (mapHeads g)) = true :=
        sameAll_map fun child mem => ih child mem (below child mem)
      exact Bool.and_eq_true_iff.2 ⟨here, by simpa using all⟩
    | leaf head value => exact Bool.and_eq_true_iff.2 ⟨here, BEq.refl value⟩
    | empty head => exact here

/-! ## The nodes of a type -/

/-- The heads of all nodes of a type are as told. -/
def AllOf (typeName : String) (P : Head → Prop) (tree : Node) : Prop :=
  ∀ places node, tree.at? places = some node → node.typeName = typeName → P node.head

/-- The second tree is the first one after the heads of a type have been changed as the relation
says. Its shape, all content and all other heads are the same. -/
def ChangedIn (typeName : String) (R : Head → Head → Prop) (tree next : Node) : Prop :=
  ∃ change : Head → Head, next = tree.mapHeads change ∧
    ∀ places node, tree.at? places = some node →
      (node.typeName = typeName → R node.head (change node.head)) ∧
        (node.typeName ≠ typeName → change node.head = node.head)

@[simp] theorem typeName_mapHeads (f : Head → Head) (node : Node) :
    (node.mapHeads f).typeName = (f node.head).typeName := by simp [typeName]

namespace ChangedIn

variable {name : String} {R S Q : Head → Head → Prop} {tree middle next other : Node}

theorem refl (h : ∀ head, R head head) (tree : Node) : tree.ChangedIn name R tree :=
  ⟨id, (mapHeads_id tree).symm, fun _ _ _ => ⟨fun _ => h _, fun _ => rfl⟩⟩

theorem mono (h : tree.ChangedIn name R next) (weaker : ∀ head next, R head next → S head next) :
    tree.ChangedIn name S next := by
  obtain ⟨change, rfl, all⟩ := h
  exact ⟨change, rfl, fun places node there =>
    ⟨fun typed => weaker _ _ ((all places node there).1 typed), (all places node there).2⟩⟩

/-- What holds of the heads after a change when something holds of those before it. -/
theorem allOf_iff (h : tree.ChangedIn name R next)
    (keeps : ∀ head next, R head next → next.typeName = head.typeName) {P Q : Head → Prop}
    (same : ∀ head next, R head next → (Q next ↔ P head)) :
    next.AllOf name Q ↔ tree.AllOf name P := by
  obtain ⟨change, rfl, all⟩ := h
  constructor
  · intro after places node there typed
    have changed := (all places node there).1 typed
    have found := after places (node.mapHeads change) (by simp [at?_mapHeads, there])
    rw [typeName_mapHeads, head_mapHeads] at found
    exact (same _ _ changed).1 (found ((keeps _ _ changed).trans typed))
  · intro before places found there typed
    rw [at?_mapHeads] at there
    obtain ⟨node, here, rfl⟩ := Option.map_eq_some_iff.1 there
    obtain ⟨own, foreign⟩ := all places node here
    rw [typeName_mapHeads] at typed
    rw [head_mapHeads]
    by_cases typed' : node.typeName = name
    · exact (same _ _ (own typed')).2 (before places node here typed')
    · exact absurd ((congrArg Head.typeName (foreign typed')).symm.trans typed) typed'

/-- One change after the other. -/
theorem trans (first : tree.ChangedIn name R middle) (later : middle.ChangedIn name S next)
    (keeps : ∀ head next, R head next → next.typeName = head.typeName)
    (comp : ∀ head middle next, R head middle → S middle next → Q head next) :
    tree.ChangedIn name Q next := by
  obtain ⟨f, rfl, before⟩ := first
  obtain ⟨g, rfl, after⟩ := later
  refine ⟨fun head => g (f head), mapHeads_mapHeads f g tree, fun places node there => ?_⟩
  obtain ⟨own, foreign⟩ := before places node there
  obtain ⟨own', foreign'⟩ := after places (node.mapHeads f) (by simp [at?_mapHeads, there])
  rw [typeName_mapHeads, head_mapHeads] at own' foreign'
  constructor
  · intro typed
    have changed := own typed
    exact comp _ _ _ changed (own' ((keeps _ _ changed).trans typed))
  · intro untyped
    have same := foreign untyped
    rw [same] at foreign'
    exact (congrArg g same).trans (foreign' untyped)

/-- Changes that make equal heads make equal trees. -/
theorem beq (first : tree.ChangedIn name R next) (second : tree.ChangedIn name S other)
    (same : ∀ head x y, R head x → S head y → (x == y) = true) : (next == other) = true := by
  obtain ⟨f, rfl, one⟩ := first
  obtain ⟨g, rfl, two⟩ := second
  refine beq_mapHeads fun places node there => ?_
  obtain ⟨own, foreign⟩ := one places node there
  obtain ⟨own', foreign'⟩ := two places node there
  by_cases typed : node.typeName = name
  · exact same _ _ _ (own typed) (own' typed)
  · rw [foreign typed, foreign' typed]
    exact BEq.refl _

/-- A change leads back to the tree, or to an equal one, exactly when it leads back to all heads of
the type. -/
theorem eq_iff (h : tree.ChangedIn name R next) {P : Head → Prop}
    (back : ∀ head next, R head next → P head → next = head)
    (only : ∀ head next, R head next → (next == head) = true → P head) :
    (next = tree ↔ tree.AllOf name P) ∧ ((next == tree) = true ↔ tree.AllOf name P) := by
  obtain ⟨change, rfl, all⟩ := h
  have same : tree.AllOf name P → tree.mapHeads change = tree := fun good =>
    mapHeads_eq_self fun places node there => by
      obtain ⟨own, foreign⟩ := all places node there
      by_cases typed : node.typeName = name
      · exact back _ _ (own typed) (good places node there typed)
      · exact foreign typed
  have good : (tree.mapHeads change == tree) = true → tree.AllOf name P :=
    fun equal places node there typed =>
      only _ _ ((all places node there).1 typed) (beq_of_beq_mapHeads equal places node there)
  refine ⟨⟨fun equal => good ?_, same⟩, ⟨good, fun h => ?_⟩⟩
  · rw [equal]
    exact BEq.refl tree
  · rw [same h]
    exact BEq.refl tree

end ChangedIn
end Node
end DocTree
