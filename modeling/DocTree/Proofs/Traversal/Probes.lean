import DocTree.Proofs.Traversal.Entering

/-!
# Tests with a state

A search keeps the subtrees that it has not come to, and so goes through a tree in pre-order. It
tests a node when it comes to it, once, and goes no further than it has to. So the state of its test
is what the nodes up to the last one yielded make of it, one after the other.

## Main definitions

* `Select.upTo` — the nodes up to so many selected ones.
* `Search.ahead` — the nodes that a search has not come to, in order.
* `Probe.Answers`, `Probe.after` — what a test answers, and its state after some nodes.
* `Select.noted` — the test that notes the nodes it is asked for.

## Main statements

* `Search.collect_spec` — a search goes through the nodes ahead, and no further than it has to.
* `Probe.Shadows.collect` — what rides along in the state of a test does not change the search.
-/

namespace DocTree

/-! ## Nodes up to selected ones -/

namespace Select

variable {select : Select} {nodes rest : List Located}

/-- The nodes of a list up to so many selected ones, or all when there are not so many. -/
def upTo (select : Select) : Nat → List Located → List Located
  | 0, _ => []
  | _ + 1, [] => []
  | count + 1, located :: rest =>
    located :: if select located.node then upTo select count rest else upTo select (count + 1) rest

@[simp] theorem upTo_zero (select : Select) (nodes : List Located) : select.upTo 0 nodes = [] := by
  cases nodes <;> rfl

@[simp] theorem upTo_nil (select : Select) (count : Nat) : select.upTo count [] = [] := by
  cases count <;> rfl

/-- The selected ones of these are the first ones. -/
theorem among_upTo (select : Select) (count : Nat) (nodes : List Located) :
    select.among (select.upTo count nodes) = (select.among nodes).take count := by
  induction nodes generalizing count with
  | nil => simp [among]
  | cons located rest ih =>
    cases count with
    | zero => rfl
    | succ count =>
      simp only [among] at ih
      cases selected : select located.node <;> simp [among, upTo, selected, ih]

/-- Without so many selected nodes, these are all. -/
theorem upTo_eq_self {count : Nat} (few : (select.among nodes).length < count) :
    select.upTo count nodes = nodes := by
  induction nodes generalizing count with
  | nil => exact upTo_nil select count
  | cons located rest ih =>
    cases count with
    | zero => exact absurd few (Nat.not_lt_zero _)
    | succ count =>
      simp only [among] at ih few
      cases selected : select located.node <;> simp_all [upTo]

/-- Further nodes come after those up to the first one. -/
theorem upTo_succ (count : Nat) (split : nodes = select.upTo 1 nodes ++ rest) :
    select.upTo (count + 1) nodes = select.upTo 1 nodes ++ select.upTo count rest := by
  induction nodes with
  | nil =>
    obtain rfl : rest = [] := by simpa using split.symm
    simp
  | cons located later ih =>
    cases selected : select located.node with
    | true =>
      obtain rfl : later = rest := by simpa [upTo, selected] using split
      simp [upTo, selected]
    | false =>
      have split : later = select.upTo 1 later ++ rest := by simpa [upTo, selected] using split
      simp [upTo, selected, ih split]

/-- The nodes up to a selected one end with it. -/
theorem exists_upTo_eq {place : Nat} {located : Located}
    (found : (select.among nodes)[place]? = some located) :
    ∃ earlier later, nodes = earlier ++ located :: later ∧
      select.upTo (place + 1) nodes = earlier ++ [located] := by
  induction nodes generalizing place with
  | nil => cases found
  | cons first rest ih =>
    cases selected : select first.node with
    | false =>
      have found : (select.among rest)[place]? = some located := by
        simpa [among, selected] using found
      obtain ⟨earlier, later, rfl, tested⟩ := ih found
      exact ⟨first :: earlier, later, rfl, by simp [upTo, selected, tested]⟩
    | true =>
      cases place with
      | zero =>
        obtain rfl : first = located := by simpa [among, selected] using found
        exact ⟨[], rest, rfl, by simp [upTo, selected]⟩
      | succ place =>
        have found : (select.among rest)[place]? = some located := by
          simpa [among, selected] using found
        obtain ⟨earlier, later, rfl, tested⟩ := ih found
        exact ⟨first :: earlier, later, rfl, by simp [upTo, selected, tested]⟩

end Select

/-! ## What is ahead -/

namespace Search

/-- The nodes of pending subtrees, in the order in which a search comes to them. -/
def ahead (pending : List Located) : List Located :=
  pending.flatMap fun located => located.node.preorder located.path

theorem ahead_append (xs ys : List Located) : ahead (xs ++ ys) = ahead xs ++ ahead ys :=
  List.flatMap_append

theorem ahead_childrenFrom (path : Path) (place : Nat) (nodes : List Node) :
    ahead (childrenFrom path place nodes) = Node.preorderAll path place nodes := by
  induction nodes generalizing place with
  | nil => rfl
  | cons node nodes ih =>
    rw [childrenFrom, ahead, List.flatMap_cons, Node.preorderAll]
    exact congrArg _ (ih (place + 1))

/-- A search comes to the first pending node, and then to its children before all others. -/
theorem ahead_cons (current : Located) (rest : List Located) :
    ahead (current :: rest) =
      current :: ahead (childrenFrom current.path 0 current.node.children ++ rest) := by
  rw [ahead_append, ahead_childrenFrom, ahead, List.flatMap_cons, Node.preorder_eq]
  rfl

end Search

/-! ## Tests with a state -/

/-- The test by a selection that notes the nodes it is asked for. -/
def Select.noted (select : Select) : Probe (List Located) := fun located noted =>
  (select located.node, noted ++ [located])

namespace Probe

variable {σ : Type} {probe : Probe σ} {select : Select}

/-- The state after some nodes. -/
def after (probe : Probe σ) (state : σ) (nodes : List Located) : σ :=
  nodes.foldl (fun state located => (probe located state).2) state

theorem after_append (state : σ) (xs ys : List Located) :
    probe.after state (xs ++ ys) = probe.after (probe.after state xs) ys :=
  List.foldl_append

theorem after_counted (count : Nat) (nodes : List Located) :
    after select.counted count nodes = count + nodes.length := by
  induction nodes generalizing count with
  | nil => rfl
  | cons located nodes ih =>
    rw [after, List.foldl_cons, List.length_cons]
    exact (ih (count + 1)).trans (by omega)

theorem after_noted (noted nodes : List Located) :
    after select.noted noted nodes = noted ++ nodes := by
  induction nodes generalizing noted with
  | nil => exact (List.append_nil _).symm
  | cons located nodes ih =>
    rw [after, List.foldl_cons]
    exact (ih (noted ++ [located])).trans (by simp)

/-- A test answers as a selection does, whatever its state. -/
def Answers (probe : Probe σ) (select : Select) : Prop :=
  ∀ located state, (probe located state).1 = select located.node

theorem answers_counted (select : Select) : Answers select.counted select := fun _ _ => rfl

theorem answers_noted (select : Select) : Answers select.noted select := fun _ _ => rfl

end Probe

namespace Search

variable {σ : Type} {probe : Probe σ} {select : Select}

/-- The next node that passes is the first one ahead, and only the nodes up to it are tested. -/
theorem next?_spec (answers : probe.Answers select) (search : Search σ) :
    ∃ found left, search.next? probe =
        (found, ⟨left, probe.after search.state (select.upTo 1 (ahead search.pending))⟩) ∧
      found.toList = select.among (select.upTo 1 (ahead search.pending)) ∧
      ahead search.pending = select.upTo 1 (ahead search.pending) ++ ahead left := by
  fun_induction next? probe search with
  | case1 state => exact ⟨none, [], rfl, rfl, rfl⟩
  | case2 current rest state next search asked =>
    have chosen : select current.node = true := by rw [← answers current state, asked]
    refine ⟨some current, search.pending, ?_, ?_, ?_⟩
    · simp [ahead_cons, Select.upTo, chosen, Probe.after, asked, search]
    · simp [ahead_cons, Select.upTo, Select.among, chosen]
    · simp [ahead_cons, Select.upTo, chosen, search]
  | case3 current rest state passed next asked search failed ih =>
    have failed : select current.node = false := by
      rw [← answers current state, asked]
      exact Bool.eq_false_iff.2 failed
    obtain ⟨found, left, same, yields, split⟩ := ih
    refine ⟨found, left, ?_, ?_, ?_⟩
    · rw [same]
      simp [ahead_cons, Select.upTo, failed, Probe.after, asked, search]
    · rw [yields]
      simp [ahead_cons, Select.upTo, Select.among, failed, search]
    · rw [ahead_cons, Select.upTo, if_neg (by simp [failed]), List.cons_append]
      exact congrArg _ split

/-- A search that yields nothing has nothing left to test. -/
theorem pending_of_none {search : Search σ} (h : (search.next? probe).1 = none) :
    (search.next? probe).2.pending = [] := by
  fun_induction next? probe search with
  | case1 => rfl
  | case2 => cases h
  | case3 current rest state passed next asked search failed ih => exact ih h

/-- A search that has ended yields nothing, and stays as it is. -/
theorem next?_of_pending {search : Search σ} (h : search.pending = []) :
    search.next? probe = (none, search) := by
  obtain ⟨pending, state⟩ := search
  obtain rfl : pending = [] := h
  rw [next?]

/-- A search yields the first selected nodes ahead, and tests the nodes up to the last one of them,
in order and each once. -/
theorem collect_spec (answers : probe.Answers select) (count : Nat) (search : Search σ) :
    ∃ left, search.collect probe count =
        (select.among (select.upTo count (ahead search.pending)),
          ⟨left, probe.after search.state (select.upTo count (ahead search.pending))⟩) ∧
      ahead search.pending = select.upTo count (ahead search.pending) ++ ahead left := by
  induction count generalizing search with
  | zero => exact ⟨search.pending, by simp [collect, Select.among, Probe.after], by simp⟩
  | succ count ih =>
    obtain ⟨found, left, same, yields, split⟩ := next?_spec answers search
    rw [collect, same, Select.upTo_succ count split]
    cases found with
    | none =>
      obtain rfl : left = [] := by
        have ended := pending_of_none (congrArg Prod.fst same)
        rwa [same] at ended
      have nothing : select.upTo count (ahead []) = [] := Select.upTo_nil select count
      refine ⟨[], ?_, ?_⟩
      · rw [nothing, List.append_nil, ← yields]
        rfl
      · rw [nothing, List.append_nil]
        exact split
    | some located =>
      obtain ⟨left', same', split'⟩ :=
        ih ⟨left, probe.after search.state (select.upTo 1 (ahead search.pending))⟩
      refine ⟨left', ?_, ?_⟩
      · dsimp only
        rw [same', Select.among_append, ← yields, Probe.after_append]
        rfl
      · rw [List.append_assoc, ← split']
        exact split

/-- A search with its state seen through a function. -/
def map {τ : Type} (f : τ → σ) (search : Search τ) : Search σ := ⟨search.pending, f search.state⟩

end Search

/-! ## States seen through a function -/

namespace Probe

variable {σ τ : Type} {probe : Probe σ} {other : Probe τ} {select : Select} {f : τ → σ}

/-- The other test answers the same, and its state seen through a function is that of the test. -/
def Shadows (other : Probe τ) (f : τ → σ) (probe : Probe σ) : Prop :=
  ∀ located state, probe located (f state) = (other located state).map id f

theorem Shadows.next? (h : other.Shadows f probe) (search : Search τ) :
    (search.map f).next? probe = (search.next? other).map id (.map f) := by
  fun_induction Search.next? other search with
  | case1 state => rw [Search.map, Search.next?]; rfl
  | case2 current rest state next search asked =>
    rw [Search.map, Search.next?, h, asked]
    rfl
  | case3 current rest state passed next asked search failed ih =>
    rw [Search.map, Search.next?, h, asked]
    simpa [failed, search, Search.map] using ih

/-- A search does not depend on what rides along in the state of its test. -/
theorem Shadows.collect (h : other.Shadows f probe) (count : Nat) (search : Search τ) :
    (search.map f).collect probe count = (search.collect other count).map id (.map f) := by
  induction count generalizing search with
  | zero => rfl
  | succ count ih =>
    rw [Search.collect, Search.collect, h.next?]
    rcases search.next? other with ⟨_ | located, after⟩
    · rfl
    · dsimp only [Prod.map, id]
      rw [ih]
      rfl

/-- What a test that answers as a selection makes of the nodes noted is its own state. -/
theorem Answers.shadows (answers : probe.Answers select) (state : σ) :
    Shadows select.noted (probe.after state) probe := by
  intro located noted
  rw [Select.noted, Prod.map, after_append]
  exact Prod.ext (answers located _) rfl

end Probe
end DocTree
