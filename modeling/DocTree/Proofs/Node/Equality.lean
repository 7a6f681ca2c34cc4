import DocTree.Proofs.Node.Places

/-!
# Equality of trees

Trees are equal when they have the same shape, types and keys and equal JSON values in them, which
need not be the same values.

## Main statements

* `KeyMap.beq_get?`, `KeyMap.beq_of_beq_get?` — maps are equal when they have equal values under all
  keys.
* `Node.mapHeads_eq_self` — a tree with changed heads is the same when all heads are.
* `Node.beq_of_beq_mapHeads` — when it is equal, all heads are.
-/

namespace DocTree

/-! ## Values, maps and heads -/

instance : ReflBEq Json := ⟨fun {value} => value.same_refl⟩

namespace KeyMap

variable {α : Type} [BEq α]

instance [ReflBEq α] : ReflBEq (KeyMap α) := ⟨fun {m} => BEq.refl m.entries⟩

theorem beq_lookup {xs ys : List (String × α)} (h : (xs == ys) = true) (key : String) :
    (xs.lookup key == ys.lookup key) = true := by
  induction xs generalizing ys with
  | nil => cases ys <;> simp_all
  | cons x xs ih =>
    cases ys with
    | nil => simp at h
    | cons y ys =>
      have parts : ((x.1 == y.1 && x.2 == y.2) && xs == ys) = true := h
      obtain ⟨here, later⟩ := Bool.and_eq_true_iff.1 parts
      obtain ⟨keys, values⟩ := Bool.and_eq_true_iff.1 here
      rw [List.lookup_cons, List.lookup_cons, eq_of_beq keys]
      cases key == y.1 with
      | true => exact values
      | false => exact ih later

/-- Equal maps have equal values under all keys. -/
theorem beq_get? {m n : KeyMap α} (h : (m == n) = true) (key : String) :
    (m.get? key == n.get? key) = true := beq_lookup h key

end KeyMap

theorem isSome_of_beq {α : Type} [BEq α] {x y : Option α} (h : (x == y) = true) :
    x.isSome = y.isSome := by
  cases x <;> cases y <;> simp_all

namespace KeyMap

variable {α : Type} [BEq α]

theorem lookup_eq_none_of_notMem {α : Type} {entries : List (String × α)} {key : String}
    (h : key ∉ entries.map (·.1)) : entries.lookup key = none :=
  List.lookup_eq_none_iff.2 fun _ mem =>
    bne_iff_ne.2 fun same => h (same ▸ List.mem_map_of_mem mem)

/-- Lists of entries with the same keys, in the same order, are equal when all look-ups are. -/
theorem beq_of_beq_lookup {xs ys : List (String × α)} (keys : xs.map (·.1) = ys.map (·.1))
    (once : (xs.map (·.1)).Nodup) (h : ∀ key, (xs.lookup key == ys.lookup key) = true) :
    (xs == ys) = true := by
  induction xs generalizing ys with
  | nil =>
    obtain rfl := List.map_eq_nil_iff.1 keys.symm
    rfl
  | cons x xs ih =>
    obtain ⟨⟨key, other⟩, ys, rfl, same, later⟩ := List.map_eq_cons_iff.1 keys.symm
    obtain ⟨_, value⟩ := x
    obtain rfl : key = _ := same
    obtain ⟨new, once⟩ := List.nodup_cons.1 once
    have first := h key
    simp only [List.lookup_cons, BEq.rfl] at first
    have rest : (xs == ys) = true := ih later.symm once fun k => by
      by_cases here : k = key
      · rw [here, lookup_eq_none_of_notMem new, lookup_eq_none_of_notMem (later ▸ new)]
        rfl
      · have found := h k
        rwa [List.lookup_cons, List.lookup_cons, beq_false_of_ne here] at found
    exact Bool.and_eq_true_iff.2 ⟨Bool.and_eq_true_iff.2 ⟨BEq.rfl, first⟩, rest⟩

/-- Maps that have equal values under all keys are equal. -/
theorem beq_of_beq_get? {m n : KeyMap α} (h : ∀ key, (m.get? key == n.get? key) = true) :
    (m == n) = true :=
  beq_of_beq_lookup (keys_congr fun key => isSome_of_beq (h key)) m.keys_nodup h

end KeyMap

instance : ReflBEq Head := ⟨fun {head} => by
  change (head.typeName == head.typeName && head.fields == head.fields &&
    head.data == head.data) = true
  simp⟩

/-- Equal heads have the same fields and the same keys in `data`, with equal values. -/
theorem Head.keys_of_beq {x y : Head} (h : (x == y) = true) :
    (∀ field, (x.fields.get? field).isSome = (y.fields.get? field).isSome) ∧
      ∀ key, (x.data.bind (·.get? key)).isSome = (y.data.bind (·.get? key)).isSome := by
  obtain ⟨h, data⟩ := Bool.and_eq_true_iff.1 h
  obtain ⟨-, fields⟩ := Bool.and_eq_true_iff.1 h
  refine ⟨fun field => isSome_of_beq (KeyMap.beq_get? fields field), fun key => ?_⟩
  cases first : x.data <;> cases second : y.data <;> simp only [first, second] at data
  · rfl
  · cases data
  · cases data
  · exact isSome_of_beq (KeyMap.beq_get? data key)

namespace Node

variable {f : Head → Head}

/-! ## Trees -/

theorem same_refl (node : Node) : node.same node = true := by
  induction node with
  | container head children ih =>
    have all : sameAll children children = true := by
      induction children with
      | nil => rfl
      | cons child children ih' =>
        obtain ⟨here, later⟩ := List.forall_mem_cons.1 ih
        exact Bool.and_eq_true_iff.2 ⟨here, ih' later⟩
    exact Bool.and_eq_true_iff.2 ⟨BEq.refl head, all⟩
  | leaf head value => exact Bool.and_eq_true_iff.2 ⟨BEq.refl head, BEq.refl value⟩
  | empty head => exact BEq.refl head

instance : ReflBEq Node := ⟨fun {node} => node.same_refl⟩

theorem mapHeads_mapHeads (f g : Head → Head) (node : Node) :
    (node.mapHeads f).mapHeads g = node.mapHeads fun head => g (f head) := by
  induction node with
  | container head children ih =>
    simpa [mapHeads] using ih
  | leaf head value => rfl
  | empty head => rfl

/-- A tree with changed heads is the same when all heads are. -/
theorem mapHeads_eq_self {node : Node}
    (h : ∀ places found, node.at? places = some found → f found.head = found.head) :
    node.mapHeads f = node := by
  induction node using inductChildren with
  | step node ih =>
    obtain ⟨here, below⟩ := (forall_at?_iff (P := fun _ found => f found.head = found.head)).1 h
    have children : node.children.map (mapHeads f) = node.children :=
      (List.map_congr_left (g := id) fun child mem => ih child mem (below child mem)).trans
        (List.map_id _)
    cases node with
    | container head list =>
      have same : f head = head := here
      rw [mapHeads, same, mapHeadsAll_eq_map]
      exact congrArg _ children
    | leaf head value => exact congrArg (leaf · value) here
    | empty head => exact congrArg empty here

@[simp] theorem mapHeads_id (node : Node) : node.mapHeads id = node :=
  mapHeads_eq_self fun _ _ _ => rfl

theorem same_of_sameAll_map {g : Node → Node} {nodes : List Node}
    (h : sameAll (nodes.map g) nodes = true) : ∀ node ∈ nodes, (g node == node) = true := by
  induction nodes with
  | nil => exact List.forall_mem_nil _
  | cons node nodes ih =>
    obtain ⟨here, later⟩ := Bool.and_eq_true_iff.1 h
    exact List.forall_mem_cons.2 ⟨here, ih later⟩

/-- When a tree with changed heads is equal, all heads are. -/
theorem beq_of_beq_mapHeads {node : Node} (h : (node.mapHeads f == node) = true) :
    ∀ places found, node.at? places = some found → (f found.head == found.head) = true := by
  induction node using inductChildren with
  | step node ih =>
    rw [forall_at?_iff (P := fun _ found => (f found.head == found.head) = true)]
    cases node with
    | container head children =>
      obtain ⟨here, below⟩ := Bool.and_eq_true_iff.1 h
      rw [mapHeadsAll_eq_map] at below
      exact ⟨here, fun child mem => ih child mem (same_of_sameAll_map below child mem)⟩
    | leaf head value => exact ⟨(Bool.and_eq_true_iff.1 h).1, List.forall_mem_nil _⟩
    | empty head => exact ⟨h, List.forall_mem_nil _⟩

end Node
end DocTree
