import DocTree.Proofs.Validation.Rules
import DocTree.Proofs.Json.Canonical
import Mathlib.Data.List.Nodup
import Mathlib.Data.List.Perm.Basic

/-!
# Checked sites

Which values of a document are checked as nodes: the document itself, and below an object of a
registered type above the depth limit each of its children and each element of its declared lists
of nodes.

## Main definitions

* `Site` — a value where a node is expected.
* `Validator.Below` — what lies right below a site.
* `Validator.Checked` — the sites that are checked.
* `Validator.within` — the same sites as a list.

## Main statements

* `Validator.mem_within_iff` — the list holds the checked sites.
* `Validator.perm_within` — what a check tells of a value is what it tells of the sites there.
* `Validator.nodup_within` — no two of them have the same path.
-/

namespace DocTree

/-- A value where a node is expected: its path, how deep it lies, the container that has to accept
it if there is one, and the value. -/
structure Site where
  path : Path
  depth : Nat
  parent : Option Schema
  value : Json

namespace Site

/-- The site of a whole document. -/
def root (document : Json) : Site := ⟨.root, 0, none, document⟩

/-- The site of a child of an object of a type. -/
def child (site : Site) (schema : Schema) (place : Nat) (value : Json) : Site :=
  ⟨site.path.child place, site.depth + 1,
    if schema.contentClass = .container then some schema else none, value⟩

/-- The site of an element of a list of nodes. -/
def element (site : Site) (field : String) (place : Nat) (value : Json) : Site :=
  ⟨site.path.element field place, site.depth + 1, none, value⟩

end Site

/-- The children of an object, when they are an array. -/
def childItems (object : KeyMap Json) : List Json :=
  ((object.get? "children").bind Json.items?).getD []

/-- The elements of a field of an object, when it is declared as a list of nodes and is an array. -/
def listItems (spec : FieldSpec) (object : KeyMap Json) (field : String) : List Json :=
  if spec.kind = .nodeList then ((object.get? field).bind Json.items?).getD [] else []

theorem items?_eq_some_iff {value : Json} {items : List Json} :
    value.items? = some items ↔ value = .array items := by
  cases value <;> simp [Json.items?]

theorem getElem?_childItems_iff {object : KeyMap Json} {place : Nat} {value : Json} :
    (childItems object)[place]? = some value ↔
      ∃ items, object.get? "children" = some (.array items) ∧ items[place]? = some value := by
  unfold childItems
  cases found : (object.get? "children").bind Json.items? with
  | none =>
    refine ⟨fun h => by simp at h, ?_⟩
    rintro ⟨items, array, -⟩
    simp [array, Json.items?] at found
  | some items =>
    obtain ⟨_, array, read⟩ := Option.bind_eq_some_iff.1 found
    simp [array, items?_eq_some_iff.1 read]

theorem getElem?_listItems_iff {spec : FieldSpec} {object : KeyMap Json} {field : String}
    {place : Nat} {value : Json} :
    (listItems spec object field)[place]? = some value ↔
      spec.kind = .nodeList ∧
        ∃ items, object.get? field = some (.array items) ∧ items[place]? = some value := by
  unfold listItems
  split
  · cases found : (object.get? field).bind Json.items? with
    | none =>
      refine ⟨fun h => by simp at h, ?_⟩
      rintro ⟨-, items, array, -⟩
      simp [array, Json.items?] at found
    | some items =>
      obtain ⟨_, array, read⟩ := Option.bind_eq_some_iff.1 found
      simp_all [items?_eq_some_iff.1 read]
  · simp [*]

namespace Validator

variable {validator : Validator}

/-! ## Sites as a relation -/

/-- A site below which the check goes on: an object of a registered type, above the depth
limit. -/
structure Opens (validator : Validator) (site : Site) (schema : Schema)
    (object : KeyMap Json) : Prop where
  shallow : site.depth < validator.settings.maxDepth
  read : site.value.map? = some object
  known : validator.schemaOf? object = some schema

theorem Opens.unique {site : Site} {schema other : Schema} {object map : KeyMap Json}
    (h : validator.Opens site schema object) (h' : validator.Opens site other map) :
    other = schema ∧ map = object := by
  obtain rfl : map = object := Option.some.inj (h'.read.symm.trans h.read)
  exact ⟨Option.some.inj (h'.known.symm.trans h.known), rfl⟩

/-- Where the check does not go on, the value is refused for what it is, for its type or for where
it lies. -/
theorem exists_refused {levels : Nat} (site : Site)
    (deep : levels + site.depth = validator.settings.maxDepth)
    (closed : ∀ schema object, ¬validator.Opens site schema object) :
    ∃ violation : Violation, validator.check levels site.path site.value = .refused violation ∧
      violation.kind ∈ [.contentShape, .unknownType, .depthLimit] := by
  cases read : site.value.map? with
  | none =>
    rw [check, read]
    exact ⟨_, rfl, by simp [Breach.violation, Breach.kind]⟩
  | some object =>
    cases levels with
    | zero =>
      rw [check, read]
      exact ⟨_, rfl, by simp [Breach.violation, Breach.kind]⟩
    | succ levels =>
      have unknown : validator.schemaOf? object = none :=
        Option.eq_none_iff_forall_ne_some.2 fun schema known =>
          closed schema object ⟨by omega, read, known⟩
      obtain ⟨violation, refused, -, kind⟩ :=
        check_succ_of_unknown levels site.path read unknown
      exact ⟨violation, refused, by simp [kind]⟩

/-- What lies right below a site: children whatever the content of the type, and elements of
declared lists of nodes. -/
inductive Below (validator : Validator) (site : Site) : Site → Prop
  | child {schema : Schema} {object : KeyMap Json} {items : List Json} {place : Nat}
      {value : Json} :
      validator.Opens site schema object → object.get? "children" = some (.array items) →
      items[place]? = some value → Below validator site (site.child schema place value)
  | element {schema : Schema} {object : KeyMap Json} {field : String} {spec : FieldSpec}
      {items : List Json} {place : Nat} {value : Json} :
      validator.Opens site schema object → schema.fields.get? field = some spec →
      spec.kind = .nodeList → object.get? field = some (.array items) →
      items[place]? = some value → Below validator site (site.element field place value)

/-- The sites that are checked from a site on. -/
inductive Checked (validator : Validator) (start : Site) : Site → Prop
  | start : Checked validator start start
  | step {site next : Site} :
      Checked validator start site → validator.Below site next →
      Checked validator start next

theorem Checked.trans {p q r : Site} (first : validator.Checked p q)
    (second : validator.Checked q r) : validator.Checked p r := by
  induction second with
  | start => exact first
  | step _ next ih => exact ih.step next

/-! ## Sites as a list -/

/-- The sites right below a site. -/
def sitesBelow (validator : Validator) (site : Site) : List Site :=
  match site.value.map? with
  | none => []
  | some object =>
    if site.depth < validator.settings.maxDepth then
      match validator.schemaOf? object with
      | none => []
      | some schema =>
        (schema.fields.entries.flatMap fun (field, spec) =>
          (listItems spec object field).zipIdx.map fun (value, place) =>
            site.element field place value) ++
        (childItems object).zipIdx.map fun (value, place) => site.child schema place value
    else []

/-- A site and all sites below it, so many levels deep. -/
def within (validator : Validator) : (levels : Nat) → Site → List Site
  | 0, site => [site]
  | levels + 1, site => site :: (validator.sitesBelow site).flatMap (validator.within levels)

theorem sitesBelow_eq {site : Site} {schema : Schema} {object : KeyMap Json}
    (h : validator.Opens site schema object) :
    validator.sitesBelow site =
      (schema.fields.entries.flatMap fun (field, spec) =>
        (listItems spec object field).zipIdx.map fun (value, place) =>
          site.element field place value) ++
      (childItems object).zipIdx.map fun (value, place) => site.child schema place value := by
  simp [sitesBelow, h.read, h.shallow, h.known]

theorem sitesBelow_eq_nil {site : Site}
    (h : ∀ schema object, ¬validator.Opens site schema object) :
    validator.sitesBelow site = [] := by
  unfold sitesBelow
  cases read : site.value.map? with
  | none => rfl
  | some object =>
    by_cases shallow : site.depth < validator.settings.maxDepth
    · cases known : validator.schemaOf? object with
      | none => simp [known]
      | some schema => exact absurd ⟨shallow, read, known⟩ (h schema object)
    · simp [shallow]

theorem mem_sitesBelow_iff {site next : Site} :
    next ∈ validator.sitesBelow site ↔ validator.Below site next := by
  by_cases opened : ∃ schema object, validator.Opens site schema object
  · obtain ⟨schema, object, opens⟩ := opened
    rw [sitesBelow_eq opens]
    simp only [List.mem_append, List.mem_flatMap, List.mem_map, Prod.exists,
      List.mk_mem_zipIdx_iff_getElem?, KeyMap.mem_entries_iff]
    constructor
    · rintro (⟨field, spec, declared, value, place, found, rfl⟩ | ⟨value, place, found, rfl⟩)
      · obtain ⟨kind, items, array, found⟩ := getElem?_listItems_iff.1 found
        exact .element opens declared kind array found
      · obtain ⟨items, array, found⟩ := getElem?_childItems_iff.1 found
        exact .child opens array found
    · rintro (⟨h, array, found⟩ | ⟨h, declared, kind, array, found⟩)
      · obtain ⟨rfl, rfl⟩ := opens.unique h
        exact .inr ⟨_, _, getElem?_childItems_iff.2 ⟨_, array, found⟩, rfl⟩
      · obtain ⟨rfl, rfl⟩ := opens.unique h
        exact .inl ⟨_, _, declared, _, _,
          getElem?_listItems_iff.2 ⟨kind, _, array, found⟩, rfl⟩
  · have closed : ∀ schema object, ¬validator.Opens site schema object :=
      fun schema object opens => opened ⟨schema, object, opens⟩
    rw [sitesBelow_eq_nil closed]
    refine ⟨fun h => (by cases h), ?_⟩
    rintro (⟨h, -, -⟩ | ⟨h, -, -, -, -⟩) <;> exact absurd h (closed _ _)

/-! ## The list holds the relation -/

theorem Below.depth {site next : Site} (h : validator.Below site next) :
    next.depth = site.depth + 1 ∧ site.depth < validator.settings.maxDepth := by
  cases h with
  | child opens => exact ⟨rfl, opens.shallow⟩
  | element opens => exact ⟨rfl, opens.shallow⟩

theorem checked_of_mem_within {levels : Nat} {site found : Site}
    (h : found ∈ validator.within levels site) : validator.Checked site found := by
  induction levels generalizing site with
  | zero => exact List.mem_singleton.1 h ▸ .start
  | succ levels ih =>
    rcases List.mem_cons.1 h with rfl | h
    · exact .start
    · obtain ⟨next, first, later⟩ := List.mem_flatMap.1 h
      exact (Checked.start.step (mem_sitesBelow_iff.1 first)).trans (ih later)

/-- A list that goes deep enough goes on below each of its sites. -/
theorem mem_within_of_below {levels : Nat} {site found next : Site}
    (deep : validator.settings.maxDepth ≤ levels + site.depth)
    (mem : found ∈ validator.within levels site) (step : validator.Below found next) :
    next ∈ validator.within levels site := by
  induction levels generalizing site with
  | zero =>
    have := step.depth.2
    rw [List.mem_singleton.1 mem] at this
    omega
  | succ levels ih =>
    have head : ∀ site : Site, site ∈ validator.within levels site := fun site => by
      cases levels <;> simp [within]
    rcases List.mem_cons.1 mem with rfl | mem
    · exact List.mem_cons_of_mem _
        (List.mem_flatMap.2 ⟨next, mem_sitesBelow_iff.2 step, head next⟩)
    · obtain ⟨middle, first, later⟩ := List.mem_flatMap.1 mem
      have depth := (mem_sitesBelow_iff.1 first).depth.1
      exact List.mem_cons_of_mem _
        (List.mem_flatMap.2 ⟨middle, first, ih (by omega) later⟩)

/-- The list of sites that goes down to the depth limit holds exactly the checked ones. -/
theorem mem_within_iff {levels : Nat} {site found : Site}
    (deep : validator.settings.maxDepth ≤ levels + site.depth) :
    found ∈ validator.within levels site ↔ validator.Checked site found := by
  refine ⟨checked_of_mem_within, ?_⟩
  intro h
  induction h with
  | start => cases levels <;> simp [within]
  | step _ next ih => exact mem_within_of_below deep ih next

theorem mem_within_root_iff {document : Json} {found : Site} :
    found ∈ validator.within validator.settings.maxDepth (Site.root document) ↔
      validator.Checked (Site.root document) found :=
  mem_within_iff (Nat.le_refl _)

/-- What tells of each site what there is to tell of it alone, and goes on below where the check
goes on, tells of a value what there is to tell of the sites there, down to the depth limit. -/
theorem perm_within {α : Type} (tells : (levels : Nat) → Site → List α) {own : Site → List α}
    (closed : ∀ levels site, levels + site.depth = validator.settings.maxDepth →
      (∀ schema object, ¬validator.Opens site schema object) → tells levels site = own site)
    (opened : ∀ levels site schema object, validator.Opens site schema object →
      (tells (levels + 1) site).Perm
        (own site ++ (validator.sitesBelow site).flatMap (tells levels)))
    {levels : Nat} {site : Site} (deep : levels + site.depth = validator.settings.maxDepth) :
    (tells levels site).Perm ((validator.within levels site).flatMap own) := by
  -- Levels and depth add up to the limit throughout, so the list of sites ends as the check does.
  induction levels generalizing site with
  | zero =>
    have shut : ∀ schema object, ¬validator.Opens site schema object := fun _ _ opens => by
      have := opens.shallow
      omega
    rw [closed 0 site deep shut, within, List.flatMap_singleton]
  | succ levels ih =>
    rw [within, List.flatMap_cons, List.flatMap_assoc]
    by_cases open' : ∃ schema object, validator.Opens site schema object
    · obtain ⟨schema, object, opens⟩ := open'
      have lower : ∀ next ∈ validator.sitesBelow site,
          (tells levels next).Perm ((validator.within levels next).flatMap own) :=
        fun next mem => ih <| by
          have := (mem_sitesBelow_iff.1 mem).depth
          omega
      exact (opened levels site schema object opens).trans
        (.append_left _ (List.Perm.flatMap_left _ lower))
    · have shut : ∀ schema object, ¬validator.Opens site schema object :=
        fun schema object opens => open' ⟨schema, object, opens⟩
      rw [closed _ site deep shut, sitesBelow_eq_nil shut, List.flatMap_nil, List.append_nil]

/-! ## Paths -/

/-- A checked site lies on a path that goes on from the start. -/
theorem Checked.path_suffix {site found : Site} (h : validator.Checked site found) :
    site.path.upward <:+ found.path.upward := by
  induction h with
  | start => exact List.suffix_refl _
  | step _ next ih =>
    refine ih.trans ?_
    cases next with
    | child => exact List.suffix_cons _ _
    | element => exact (List.suffix_cons _ _).trans (List.suffix_cons _ _)

/-- Nothing lies on a path that goes on from both of two sites. -/
def Apart (p q : Site) : Prop :=
  ∀ steps, p.path.upward <:+ steps → ¬q.path.upward <:+ steps

theorem eq_of_suffix {α : Type} {xs ys zs : List α} (hx : xs <:+ zs) (hy : ys <:+ zs)
    (h : xs.length = ys.length) : xs = ys :=
  (List.suffix_of_suffix_length_le hx hy (Nat.le_of_eq h)).eq_of_length h

theorem apart_child {site : Site} {schema : Schema} {i j : Nat} (h : i ≠ j) (v w : Json) :
    Apart (site.child schema i v) (site.child schema j w) := by
  intro steps left right
  have same : Segment.index i :: site.path.upward = .index j :: site.path.upward :=
    eq_of_suffix left right rfl
  exact h (by simpa using same)

theorem apart_element {site : Site} {f g : String} {i j : Nat} (h : ¬(f = g ∧ i = j))
    (v w : Json) : Apart (site.element f i v) (site.element g j w) := by
  intro steps left right
  have same : Segment.index i :: .field f :: site.path.upward =
      .index j :: .field g :: site.path.upward := eq_of_suffix left right rfl
  exact h (by simp_all)

theorem apart_element_child {site : Site} {schema : Schema} {f : String} {i j : Nat} (v w : Json) :
    Apart (site.element f i v) (site.child schema j w) := by
  intro steps left right
  have field : Segment.field f :: site.path.upward <:+ steps := (List.suffix_cons _ _).trans left
  have same : Segment.field f :: site.path.upward = .index j :: site.path.upward :=
    eq_of_suffix field right rfl
  cases same

theorem pairwise_zipIdx {α : Type} (items : List α) :
    items.zipIdx.Pairwise fun a b => a.2 ≠ b.2 := by
  have nodup : (items.zipIdx.map Prod.snd).Nodup := by
    rw [List.zipIdx_map_snd]
    exact List.nodup_range'
  exact List.pairwise_map.1 nodup

theorem sitesBelow_apart (validator : Validator) (site : Site) :
    (validator.sitesBelow site).Pairwise Apart := by
  by_cases opened : ∃ schema object, validator.Opens site schema object
  · obtain ⟨schema, object, opens⟩ := opened
    rw [sitesBelow_eq opens, List.pairwise_append]
    refine ⟨List.pairwise_flatMap.2 ⟨fun (field, spec) _ => ?_, ?_⟩, ?_, ?_⟩
    · exact List.pairwise_map.2 <| (pairwise_zipIdx _).imp fun other =>
        apart_element (fun same => other same.2) _ _
    · refine schema.fields.ordered.imp fun {a b} less p hp q hq => ?_
      have differ : a.1 ≠ b.1 := fun same => String.lt_irrefl b.1 (same ▸ less)
      obtain ⟨_, _, rfl⟩ := List.mem_map.1 hp
      obtain ⟨_, _, rfl⟩ := List.mem_map.1 hq
      exact apart_element (fun same => differ same.1) _ _
    · exact List.pairwise_map.2 <| (pairwise_zipIdx _).imp fun other => apart_child other _ _
    · intro p hp q hq
      obtain ⟨⟨field, spec⟩, -, hp⟩ := List.mem_flatMap.1 hp
      obtain ⟨_, -, rfl⟩ := List.mem_map.1 hp
      obtain ⟨_, -, rfl⟩ := List.mem_map.1 hq
      exact apart_element_child _ _
  · rw [sitesBelow_eq_nil fun schema object opens => opened ⟨schema, object, opens⟩]
    exact .nil

/-- No two sites of the list have the same path. -/
theorem nodup_within (validator : Validator) (levels : Nat) (site : Site) :
    ((validator.within levels site).map (·.path)).Nodup := by
  induction levels generalizing site with
  | zero => simp [within]
  | succ levels ih =>
    refine List.pairwise_map.2 (List.pairwise_cons.2 ⟨?_, ?_⟩)
    · intro found mem same
      obtain ⟨next, first, later⟩ := List.mem_flatMap.1 mem
      have below : next.path.upward <:+ site.path.upward :=
        same ▸ (checked_of_mem_within later).path_suffix
      have longer : site.path.upward.length < next.path.upward.length := by
        have step := mem_sitesBelow_iff.1 first
        cases step with
        | child => exact Nat.lt_add_one _
        | element => exact Nat.lt_add_of_pos_right (Nat.zero_lt_two)
      exact Nat.not_lt.2 below.length_le longer
    · refine List.pairwise_flatMap.2 ⟨fun next _ => List.pairwise_map.1 (ih next), ?_⟩
      refine (sitesBelow_apart validator site).imp ?_
      intro _ _ apart p hp q hq same
      exact apart _ (checked_of_mem_within hp).path_suffix
        (same ▸ (checked_of_mem_within hq).path_suffix)

end Validator
end DocTree
