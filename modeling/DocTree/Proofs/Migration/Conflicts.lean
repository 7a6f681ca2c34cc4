import DocTree.Proofs.Migration.Passes
import DocTree.Proofs.Node.Heads
import DocTree.Proofs.Traversal.Order

/-!
# Where moves end

A move fits a head when it meets no conflict there. It succeeds when it fits all nodes of the type.
Otherwise it ends at the first node of the type, in post-order, that it does not fit, with the first
entry that could not be moved.

## Main definitions

* `Promotion.EndsAt` — the first node of the type, in post-order, that does not fit.

## Main statements

* `Mapping.foldlM_eq_error_iff` — the entry at which a move of a head ends.
* `Promotion.conflict?_eq_findSome?` — the first conflict is the first one in post-order.
* `Promotion.exists_run_iff` — when a move succeeds.
* `Promotion.run_eq_conflict` — how it ends otherwise.
* `Promotion.run_eq_error` — all the ways in which a move fails.
-/

namespace DocTree

namespace Mapping

variable {pairs before after : List (String × String)} {key field : String} {head : Head}
  {clash : Clash} {entry : Head → String → String → Except Clash Head}

/-- When all keys are different, those before an entry are, and are not its own. -/
theorem distinct_before
    (distinct : (before ++ (key, field) :: after).Pairwise fun a b => a.1 ≠ b.1) :
    before.Pairwise (fun a b => a.1 ≠ b.1) ∧ ∀ pair ∈ before, pair.1 ≠ key := by
  obtain ⟨distinct, -, apart⟩ := List.pairwise_append.1 distinct
  exact ⟨distinct, fun pair mem => apart pair mem (key, field) List.mem_cons_self⟩

/-- All entries can be moved when the last one can, after those before it. -/
theorem exists_foldlM_snoc_iff :
    (∃ next, (before ++ [(key, field)]).foldlM (fun head pair => entry head pair.1 pair.2) head =
        .ok next) ↔
      ∃ middle, before.foldlM (fun head pair => entry head pair.1 pair.2) head = .ok middle ∧
        ∃ next, entry middle key field = .ok next := by
  simp only [List.foldlM_append, List.foldlM_cons, List.foldlM_nil, bind_pure,
    Except.bind_eq_ok_iff]
  exact exists_comm.trans (exists_congr fun _ => exists_and_left)

/-- A move of a head ends at the first entry that cannot be moved, after those before it. -/
theorem foldlM_eq_error_iff :
    pairs.foldlM (fun head pair => entry head pair.1 pair.2) head = .error clash ↔
      ∃ before key field after middle, pairs = before ++ (key, field) :: after ∧
        before.foldlM (fun head pair => entry head pair.1 pair.2) head = .ok middle ∧
        entry middle key field = .error clash := by
  constructor
  · intro h
    induction pairs generalizing head with
    | nil => cases h
    | cons first pairs ih =>
      rw [List.foldlM_cons] at h
      cases step : entry head first.1 first.2 with
      | error found =>
        rw [step] at h
        cases h
        exact ⟨[], first.1, first.2, pairs, head, rfl, rfl, step⟩
      | ok next =>
        rw [step] at h
        obtain ⟨before, key, field, after, middle, rfl, run, failed⟩ := ih h
        refine ⟨first :: before, key, field, after, middle, rfl, ?_, failed⟩
        rw [List.foldlM_cons, step]
        exact run
  · rintro ⟨before, key, field, after, middle, rfl, run, failed⟩
    rw [List.foldlM_append, run]
    change (entry middle key field >>= _) = _
    rw [failed]
    rfl

/-- When entries are moved only if there are any, this fails as moving them does. -/
theorem guarded_eq_error_iff {needed : Prop} [Decidable needed] {run : Except Clash Head}
    (idle : ¬needed → ∃ next, run = .ok next) :
    (if needed then some <$> run else .ok none) = .error clash ↔ run = .error clash := by
  split
  · cases run <;> simp [Functor.map, Except.map]
  · rename_i nothing
    obtain ⟨next, same⟩ := idle nothing
    simp [same]

theorem exists_guarded_iff {needed : Prop} [Decidable needed] {run : Except Clash Head}
    (idle : ¬needed → ∃ next, run = .ok next) :
    (∃ moved, (if needed then some <$> run else .ok none) = .ok moved) ↔
      ∃ next, run = .ok next := by
  split
  · cases run <;> simp [Functor.map, Except.map]
  · rename_i nothing
    exact iff_of_true ⟨none, rfl⟩ (idle nothing)

end Mapping

namespace Promotion

variable {promotion : Promotion} {move : Head → Except Clash (Option Head)}

/-- The node is the first one of the type, in post-order, whose head does not fit. -/
def EndsAt (promotion : Promotion) (Fits : Head → Prop) (tree : Node) (located : Located) : Prop :=
  ∃ before after, tree.postorder .root = before ++ located :: after ∧
    (∀ earlier ∈ before, earlier.node.typeName = promotion.typeName → Fits earlier.node.head) ∧
    located.node.typeName = promotion.typeName ∧ ¬Fits located.node.head

/-! ## The first conflict -/

theorem conflictAll?_eq_findSome? {nodes : List Node}
    (below : ∀ node ∈ nodes, ∀ path, promotion.conflict? move path node =
      (node.postorder path).findSome? fun located =>
        promotion.conflictAt? move located.path located.node.head)
    (path : Path) (place : Nat) :
    promotion.conflictAll? move path place nodes =
      (Node.postorderAll path place nodes).findSome? fun located =>
        promotion.conflictAt? move located.path located.node.head := by
  induction nodes generalizing place with
  | nil => rfl
  | cons node nodes ih =>
    obtain ⟨here, later⟩ := List.forall_mem_cons.1 below
    rw [conflictAll?, Node.postorderAll, List.findSome?_append, here, ih later]

/-- The first conflict that a move meets is the first one in post-order. -/
theorem conflict?_eq_findSome? (path : Path) (node : Node) :
    promotion.conflict? move path node = (node.postorder path).findSome? fun located =>
      promotion.conflictAt? move located.path located.node.head := by
  induction node using Node.inductChildren generalizing path with
  | step node ih =>
    rw [conflict?_eq, Node.postorder_eq, List.findSome?_append,
      conflictAll?_eq_findSome? fun child mem path => ih child mem path]
    simp

theorem conflictAt?_eq_some_iff {path : Path} {head : Head} {e : PromotionError} :
    promotion.conflictAt? move path head = some e ↔
      head.typeName = promotion.typeName ∧ ∃ clash, move head = .error clash ∧
        e = .conflict promotion.typeName clash.dataKey clash.field path := by
  unfold conflictAt?
  cases move head <;> simp [eq_comm]

/-- A first conflict is that of the first node that does not fit. -/
theorem conflict?_eq_some {Fits : Head → Prop}
    (fits : ∀ head, (∃ moved, move head = .ok moved) ↔ Fits head) {tree : Node} {e : PromotionError}
    (h : promotion.conflict? move .root tree = some e) :
    ∃ located clash, promotion.EndsAt Fits tree located ∧ move located.node.head = .error clash ∧
      e = .conflict promotion.typeName clash.dataKey clash.field located.path := by
  rw [conflict?_eq_findSome?] at h
  obtain ⟨before, located, after, order, found, free⟩ := List.findSome?_eq_some_iff.1 h
  obtain ⟨typed, clash, failed, same⟩ := conflictAt?_eq_some_iff.1 found
  refine ⟨located, clash, ⟨before, after, order, ?_, typed, ?_⟩, failed, same⟩
  · intro earlier mem typed
    exact (fits _).1 (conflictAt?_eq_none_iff.1 (free earlier mem) typed)
  · rw [← fits]
    simp [failed]

/-! ## Runs -/

/-- A move succeeds when it fits all nodes of the type. -/
theorem exists_run_iff (aborted : String → Notice) {Fits : Head → Prop}
    (fits : ∀ head, (∃ moved, move head = .ok moved) ↔ Fits head)
    (fields : ∀ field ∈ promotion.mapping.targets, isBaseKey field = false) {tree : Node} :
    (∃ moved, (promotion.run move aborted tree).result = .ok moved) ↔
      tree.AllOf promotion.typeName Fits := by
  have goes : promotion.Goes move tree ↔ tree.AllOf promotion.typeName Fits :=
    forall₄_congr fun _ _ _ _ => fits _
  rw [← goes]
  exact ⟨fun ⟨_, done⟩ => (run_eq_ok done).2.1, fun goes => ⟨_, run_of_goes aborted goes fields⟩⟩

/-- A move that does not fit all nodes of the type ends at the first one that it does not fit. -/
theorem run_eq_conflict (aborted : String → Notice) {Fits : Head → Prop}
    (fits : ∀ head, (∃ moved, move head = .ok moved) ↔ Fits head)
    (fields : ∀ field ∈ promotion.mapping.targets, isBaseKey field = false) {tree : Node}
    (unfit : ¬tree.AllOf promotion.typeName Fits) :
    ∃ located clash, promotion.EndsAt Fits tree located ∧ move located.node.head = .error clash ∧
      (promotion.run move aborted tree).result =
        .error (.conflict promotion.typeName clash.dataKey clash.field located.path) := by
  rw [← exists_run_iff aborted fits fields, run_eq aborted tree fields] at unfit
  rw [run_eq aborted tree fields]
  cases conflict : promotion.conflict? move .root tree with
  | none => simp [conflict] at unfit
  | some e =>
    obtain ⟨located, clash, ends, failed, rfl⟩ := conflict?_eq_some fits conflict
    exact ⟨located, clash, ends, failed, rfl⟩

/-- A base key is no field, in whatever tree. -/
theorem run_of_base (move : Head → Except Clash (Option Head)) (aborted : String → Notice)
    (tree : Node) {field : String} (mem : field ∈ promotion.mapping.targets)
    (base : isBaseKey field = true) :
    ∃ first ∈ promotion.mapping.targets, isBaseKey first = true ∧
      (promotion.run move aborted tree).result =
        .error (.undeclaredField promotion.typeName first) := by
  obtain ⟨first, found⟩ := Option.isSome_iff_exists.1 (List.find?_isSome.2 ⟨field, mem, base⟩)
  exact ⟨first, List.mem_of_find?_eq_some found, List.find?_some found, by rw [run, found]⟩

/-- A move fails because one of its fields is a base key, or with a conflict. -/
theorem run_eq_error {aborted : String → Notice} {tree : Node} {e : PromotionError}
    (h : (promotion.run move aborted tree).result = .error e) :
    (∃ field ∈ promotion.mapping.targets, isBaseKey field = true ∧
      e = .undeclaredField promotion.typeName field) ∨
    ∃ dataKey field path, e = .conflict promotion.typeName dataKey field path := by
  by_cases base : ∃ field ∈ promotion.mapping.targets, isBaseKey field = true
  · obtain ⟨field, mem, base⟩ := base
    obtain ⟨first, mem, base, same⟩ := run_of_base move aborted tree mem base
    exact .inl ⟨first, mem, base, Except.error.inj (h.symm.trans same)⟩
  · have fields : ∀ field ∈ promotion.mapping.targets, isBaseKey field = false := by
      simpa using base
    have unfit : ¬tree.AllOf promotion.typeName fun head => ∃ moved, move head = .ok moved := by
      rw [← exists_run_iff aborted (fun _ => Iff.rfl) fields, h]
      simp
    obtain ⟨located, clash, -, -, same⟩ := run_eq_conflict aborted (fun _ => Iff.rfl) fields unfit
    exact .inr ⟨_, _, _, Except.error.inj (h.symm.trans same)⟩

theorem run_ne_missingStep {aborted : String → Notice} {tree : Node} {name : String}
    {version : UInt32} :
    (promotion.run move aborted tree).result ≠ .error (.missingStep name version) := by
  intro h
  rcases run_eq_error h with ⟨_, _, _, same⟩ | ⟨_, _, _, same⟩ <;> cases same

end Promotion
end DocTree
