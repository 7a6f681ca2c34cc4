import DocTree.Proofs.Traversal.Probes

/-!
# Searches and visits

A search yields the nodes that a visit enters, in the same order. When it yields a node it has
tested the nodes up to that one, and none behind it.

## Main definitions

* `Search.tested` — the nodes that a search has tested when it has yielded so many.
* `Search.InPreorder` — what a search yields, and what it has tested by then.

## Main statements

* `Search.take_spec` — what a search yields and counts.
* `Search.inPreorder` — a search yields what a visit enters, and is as lazy as can be.
-/

namespace DocTree
namespace Search

open Probe

variable {select : Select}

/-- A search yields the first selected nodes ahead, and counts the nodes up to the last one. -/
theorem take_spec (select : Select) (count : Nat) (search : Search Nat) :
    ∃ left, take select count search =
        (select.among (select.upTo count (ahead search.pending)),
          ⟨left, search.examined + (select.upTo count (ahead search.pending)).length⟩) ∧
      ahead search.pending = select.upTo count (ahead search.pending) ++ ahead left := by
  obtain ⟨left, same, split⟩ := collect_spec (answers_counted select) count search
  rw [after_counted] at same
  exact ⟨left, same, split⟩

theorem ahead_start (tree : Node) : ahead (start tree).pending = tree.preorder .root :=
  List.append_nil _

theorem ahead_eq_nil {pending : List Located} (h : ahead pending = []) : pending = [] := by
  cases pending with
  | nil => rfl
  | cons current rest =>
    rw [ahead_cons] at h
    cases h

theorem length_among_le (select : Select) (tree : Node) :
    (select.among (tree.preorder .root)).length ≤ tree.size := by
  rw [← Node.length_preorder tree .root]
  exact List.length_filter_le _ _

theorem take_start (select : Select) (count : Nat) (tree : Node) :
    (take select count (start tree)).1 = (select.among (tree.preorder .root)).take count := by
  obtain ⟨left, same, -⟩ := take_spec select count (start tree)
  rw [same, ahead_start, Select.among_upTo]

/-- A search yields the selected nodes in pre-order. -/
theorem found_eq (select : Select) (tree : Node) :
    found select tree = select.among (tree.preorder .root) := by
  rw [found, take_start, List.take_of_length_le (Nat.le_succ_of_le (length_among_le select tree))]

/-- The nodes that the search of a tree has tested when it has yielded so many, in order. -/
def tested (select : Select) (count : Nat) (tree : Node) : List Located :=
  (collect select.noted count (ofTree tree [])).2.state

/-- The nodes up to the last one that was yielded have been tested. -/
theorem tested_eq (select : Select) (count : Nat) (tree : Node) :
    tested select count tree = select.upTo count (tree.preorder .root) := by
  obtain ⟨left, same, -⟩ := collect_spec (answers_noted select) count (ofTree tree [])
  rw [tested, same, after_noted]
  exact congrArg (select.upTo count) (ahead_start tree)

/-- What a search yields, and what it has tested by then. -/
structure InPreorder (select : Select) (tree : Node) : Prop where
  /-- A search yields what a visit enters. -/
  visited : Visitor.enterNotes.visit select tree [] = (.proceed, found select tree)
  /-- These are the selected ones among the nodes in pre-order. -/
  preorder : found select tree = select.among (tree.preorder .root)
  /-- The path of a node leads to it from the root. -/
  places : ∀ located ∈ found select tree, ∃ places,
    located.path = .ofPlaces places ∧ tree.at? places = some located.node
  /-- The paths are in increasing order. -/
  increasing : (found select tree).Pairwise fun x y => compare x.path y.path = .lt
  /-- A search for all nodes yields as many as there are. -/
  size : (found .all tree).length = tree.size
  /-- The nodes in pre-order have different paths. -/
  nodup : ((tree.preorder .root).map (·.path)).Nodup
  /-- The first nodes come first, however many are asked for. -/
  taken : ∀ count, (take select count (start tree)).1 = (found select tree).take count
  /-- Whatever state a test keeps, the search is the one that notes its tests: it yields the same
  and leaves the same, and its test has been asked for the nodes on the account, one after the
  other. -/
  noted : ∀ {σ : Type} (probe : Probe σ), probe.Answers select → ∀ state count,
    collect probe count (ofTree tree state) =
      ((collect select.noted count (ofTree tree [])).1,
        ⟨(collect select.noted count (ofTree tree [])).2.pending,
          probe.after state (tested select count tree)⟩)
  /-- A search says how many nodes have been tested. -/
  counted : ∀ count,
    (take select count (start tree)).2.examined = (tested select count tree).length
  /-- When a node is yielded, the nodes up to it have been tested, each once, and no other. -/
  tests : ∀ (place : Nat) located, (found select tree)[place]? = some located →
    ∃ earlier later, tree.preorder .root = earlier ++ located :: later ∧
      tested select (place + 1) tree = earlier ++ [located]
  /-- When no node is left to be yielded, all have been tested, and nothing is pending. -/
  ended : ∀ count, (found select tree).length < count →
    tested select count tree = tree.preorder .root ∧
      (take select count (start tree)).2.pending = []
  /-- A search that yields nothing does so ever after, without a test. -/
  exhausted : ∀ {σ : Type} (probe : Probe σ) (search : Search σ), (search.next? probe).1 = none →
    (search.next? probe).2.next? probe = (none, (search.next? probe).2)

/-- **Searches agree with visits.** A search yields what a visit enters, in the order of the paths.
When it yields a node it has tested the nodes up to that one, each once, and none behind it. -/
theorem inPreorder (select : Select) (tree : Node) : InPreorder select tree where
  visited := by rw [Visitor.visit_enterNotes, found_eq]
  preorder := found_eq select tree
  places located mem := by
    rw [found_eq] at mem
    obtain ⟨places, along, there⟩ := Node.mem_preorder_iff.1 (List.mem_filter.1 mem).1
    exact ⟨places, along.trans (Path.root_along places), there⟩
  increasing := by
    rw [found_eq]
    exact (Node.preorder_increasing tree .root).filter _
  size := by
    have all : Select.all.among (tree.preorder .root) = tree.preorder .root :=
      List.filter_eq_self.2 fun _ _ => rfl
    rw [found_eq, all, Node.length_preorder]
  nodup := ((Node.preorder_perm tree .root).map _).nodup_iff.2 (Node.postorder_nodup tree .root)
  taken count := by rw [take_start, found_eq]
  noted probe answers state count := (answers.shadows state).collect count (ofTree tree [])
  counted count := by
    obtain ⟨left, same, -⟩ := take_spec select count (start tree)
    rw [same, tested_eq, ahead_start]
    exact Nat.zero_add _
  tests place located found := by
    rw [found_eq] at found
    rw [tested_eq]
    exact Select.exists_upTo_eq found
  ended count more := by
    rw [found_eq] at more
    obtain ⟨left, same, split⟩ := take_spec select count (start tree)
    have all := Select.upTo_eq_self more
    rw [tested_eq, same]
    rw [ahead_start, all] at split
    exact ⟨all, ahead_eq_nil (List.self_eq_append_right.1 split)⟩
  exhausted probe search none := next?_of_pending (pending_of_none none)

end Search
end DocTree
