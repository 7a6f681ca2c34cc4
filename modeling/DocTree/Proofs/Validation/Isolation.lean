import DocTree.Proofs.Validation.Acceptance
import DocTree.Proofs.Validation.Forms
import DocTree.Proofs.Validation.Origins

/-!
# Violations stay where they are

Replacing the value at a checked site, by any other one, leaves all violations as they were that
are not on a path from this site on: neither the objects above it nor anything beside it are judged
in another way.

## Main definitions

* `Json.replaceAt` — a value with what stands at a path replaced.
* `Validator.violationsOutside` — the violations that are not on a path from a place on.
* `Validator.Isolates` — replacing a value below a site does not show from elsewhere.

## Main statements

* `Validator.Checked.head_induction` — from a site up to the start of the check.
* `Validator.read_checkNode_insert` — replacing one item of an array of nodes.
* `Validator.Isolates.child`, `Validator.Isolates.element` — from a site to the one above it.
* `Validator.replaceAt_isolated` — replacing the value at any site of a document.
-/

namespace DocTree

/-! ## Replacing values -/

/-- A path begins another one. -/
def Path.Begins (path other : Path) : Prop := path.segments <+: other.segments

instance (path other : Path) : Decidable (path.Begins other) :=
  inferInstanceAs (Decidable (path.segments <+: other.segments))

namespace Json

/-- An object with an item changed in the array under one of its keys. -/
def modifyItem (value : Json) (key : String) (place : Nat) (change : Json → Json) : Json :=
  match value.map? with
  | none => value
  | some map =>
    match map.get? key with
    | some (.array items) => .ofMap (map.insert key (.array (items.modify place change)))
    | _ => value

/-- A value with what stands at the end of some steps replaced. Steps that lead to no node change
nothing. -/
def replace (value : Json) (steps : List Segment) (new : Json) : Json :=
  match steps with
  | [] => new
  | .index place :: rest => value.modifyItem "children" place (·.replace rest new)
  | .field field :: .index place :: rest => value.modifyItem field place (·.replace rest new)
  | .field _ :: _ => value

/-- A document with the value at a path replaced. -/
def replaceAt (document : Json) (path : Path) (new : Json) : Json :=
  document.replace path.segments new

theorem modifyItem_eq {value : Json} {map : KeyMap Json} {key : String} {items : List Json}
    (read : value.map? = some map) (array : map.get? key = some (.array items)) (place : Nat)
    (change : Json → Json) : value.modifyItem key place change =
      .ofMap (map.insert key (.array (items.modify place change))) := by
  simp only [modifyItem, read, array]

end Json

/-- The site with a value below it replaced. -/
def Site.replace (site : Site) (steps : List Segment) (new : Json) : Site :=
  { site with value := site.value.replace steps new }

/-! ## One item of an array of nodes -/

variable {schema : Schema} {object : KeyMap Json} {key : String} {items : List Json} {place : Nat}

theorem itemsAt_of_array (array : object.get? key = some (.array items)) :
    itemsAt object key = items := by
  rw [itemsAt, array]
  rfl

/-- An object in which one item was changed has this item changed and all others as they were. -/
theorem changed_or_eq_of_getElem?_itemsAt (array : object.get? key = some (.array items))
    {change : Json → Json} {k : String} {i : Nat} {item instead : Json}
    (found : (itemsAt object k)[i]? = some item)
    (found' : (itemsAt (object.insert key (.array (items.modify place change))) k)[i]? =
      some instead) :
    (k = key ∧ i = place ∧ instead = change item) ∨ instead = item := by
  rw [itemsAt_insert] at found'
  by_cases same : k = key
  · rw [if_pos same, List.getElem?_modify, ← itemsAt_of_array array, ← same, found] at found'
    by_cases here : place = i
    · exact .inl ⟨same, here.symm, by simpa [here] using found'.symm⟩
    · exact .inr (by simpa [here] using found'.symm)
  · rw [if_neg same] at found'
    exact .inr (Option.some.inj (found'.symm.trans found))

namespace Validator

variable {validator : Validator} {α : Type} {check : Path → Json → Verdict} {path : Path}

/-- Where changing one item of an array of nodes does not show in the check of this item, it does
not show in the check of the object. -/
theorem read_checkNode_insert (view : Findings.View α) (flawless : schema.flaw? = none)
    (nodes : schema.HoldsNodes key) (array : object.get? key = some (.array items))
    (change : Json → Json)
    (element : key ≠ "children" → ∀ item, items[place]? = some item →
      view.read (check (path.element key place) item).findings =
        view.read (check (path.element key place) (change item)).findings)
    (child : key = "children" → ∀ item, items[place]? = some item →
      view.read (validator.checkChild check path schema place item).findings =
        view.read (validator.checkChild check path schema place (change item)).findings) :
    view.read (validator.checkNode check path schema object).findings =
      view.read (validator.checkNode check path schema
        (object.insert key (.array (items.modify place change)))).findings := by
  have form := Schema.SameForm.insert_array flawless object nodes
    (List.length_modify change items place).symm
  rw [KeyMap.insert_of_get? array] at form
  have here := itemsAt_of_array array
  refine read_checkNode_congr view form flawless ?_ ?_
  · intro field spec declared _ i item instead found found'
    obtain ⟨rfl, rfl, rfl⟩ | rfl := changed_or_eq_of_getElem?_itemsAt array found found'
    · have notBase := Schema.declared_not_base flawless declared
      have other : field ≠ "children" := by
        rintro rfl
        cases notBase
      exact element other item (here ▸ found)
    · rfl
  · intro i item instead found found'
    obtain ⟨same, rfl, rfl⟩ | rfl := changed_or_eq_of_getElem?_itemsAt array found found'
    · exact child same.symm item (here ▸ same ▸ found)
    · rfl

/-! ## Elsewhere -/

/-- What is found elsewhere than on a path from a place on. -/
def outside (path : Path) : Findings.View Violation :=
  .violations fun violation => ¬path.Begins violation.path

/-- The violations of a document that are not on a path from a place on. -/
def violationsOutside (validator : Validator) (path : Path) (document : Json) : List Violation :=
  (validator.violations document).filter fun violation => ¬path.Begins violation.path

theorem Raised.path_eq {site : Site} {violation : Violation}
    (raised : validator.Raised site violation) : violation.path = site.path := by
  cases raised <;> rfl

theorem Checked.begins {site found : Site} (checked : validator.Checked site found) :
    site.path.Begins found.path :=
  List.reverse_prefix.2 checked.path_suffix

/-- Nothing that the check of a value finds lies elsewhere. -/
theorem outside_check {levels : Nat} (site : Site)
    (deep : levels + site.depth = validator.settings.maxDepth) :
    (outside site.path).read (validator.check levels site.path site.value).findings = [] := by
  refine List.filter_eq_nil_iff.2 fun violation mem => ?_
  obtain ⟨found, checked, raised⟩ := Raised.of_mem_check deep mem
  simpa [raised.path_eq] using checked.begins

/-- Neither does the refusal of a child. -/
theorem outside_checkChild {levels : Nat} {site : Site}
    (deep : levels + (site.depth + 1) = validator.settings.maxDepth) (parent : Schema)
    (place : Nat) (child : Json) :
    (outside (site.path.child place)).read
      (validator.checkChild (validator.check levels) site.path parent place child).findings =
        [] := by
  have below := outside_check (site.child parent place child) deep
  refine (Findings.View.append ..).trans (List.append_eq_nil_iff.2 ⟨?_, below⟩)
  refine List.filter_eq_nil_iff.2 fun violation mem => ?_
  obtain ⟨refusal, -, rfl⟩ := List.mem_map.1 mem
  simp [Path.Begins, Breach.violation]

/-! ## From a site up to the document -/

/-- What holds at a site holds where the check starts, when it is handed on upwards. -/
theorem Checked.head_induction {start found : Site} {motive : Site → Prop}
    (checked : validator.Checked start found) (here : motive found)
    (up : ∀ site next, validator.Below site next → validator.Checked next found → motive next →
      motive site) : motive start := by
  induction checked with
  | start => exact here
  | step _ below ih =>
    exact ih (up _ _ below .start here) fun site next first later => up site next first
      (later.step below)

/-- Replacing what lies at the end of some steps from a site, which lead to a checked one, puts the
new value there, keeps the type of the object at the site unless it is the one that is replaced, and
does not show from elsewhere. -/
structure Isolates (validator : Validator) (found : Site) (new : Json) (site : Site)
    (steps : List Segment) : Prop where
  path : found.path.segments = site.path.segments ++ steps
  checked : validator.Checked (site.replace steps new) { found with value := new }
  type : site.path = found.path ∨ typeAt? site.value = typeAt? (site.value.replace steps new)
  same : ∀ levels, levels + site.depth = validator.settings.maxDepth →
    (outside found.path).read (validator.check levels site.path site.value).findings =
      (outside found.path).read
        (validator.check levels site.path (site.value.replace steps new)).findings

theorem Isolates.start (found : Site) (new : Json) : validator.Isolates found new found [] where
  path := (List.append_nil _).symm
  checked := .start
  type := .inl rfl
  same _ deep :=
    (outside_check found deep).trans (outside_check { found with value := new } deep).symm

theorem get?_type_insert (flawless : schema.flaw? = none) (nodes : schema.HoldsNodes key)
    (new : Json) : (object.insert key new).get? "type" = object.get? "type" := by
  have other : "type" ≠ key := nodes.ne flawless (by decide) (by decide)
  rw [KeyMap.get?_insert, if_neg other]

theorem Opens.insert {site : Site} (opens : validator.Opens site schema object)
    (flawless : schema.flaw? = none) (nodes : schema.HoldsNodes key) (new : Json) :
    validator.Opens { site with value := .ofMap (object.insert key new) } schema
      (object.insert key new) where
  shallow := opens.shallow
  read := Json.map?_ofMap _
  known := by
    rw [schemaOf?, get?_type_insert flawless nodes]
    exact opens.known

/-- From an item of an array of nodes to the object. -/
theorem Isolates.up {found site : Site} {new : Json} {steps : List Segment}
    (opens : validator.Opens site schema object) (flawless : schema.flaw? = none)
    (nodes : schema.HoldsNodes key) {others : List Json}
    (replaced : site.value.replace steps new = .ofMap (object.insert key (.array others)))
    (path : found.path.segments = site.path.segments ++ steps)
    (checked : validator.Opens (site.replace steps new) schema
        (object.insert key (.array others)) →
      validator.Checked (site.replace steps new) { found with value := new })
    (same : ∀ levels, levels + (site.depth + 1) = validator.settings.maxDepth →
      (outside found.path).read
          (validator.checkNode (validator.check levels) site.path schema object).findings =
        (outside found.path).read (validator.checkNode (validator.check levels) site.path schema
          (object.insert key (.array others))).findings) :
    validator.Isolates found new site steps := by
  have opens' := opens.insert flawless nodes (.array others)
  rw [← replaced] at opens'
  refine ⟨path, checked opens', .inr ?_, fun levels deep => ?_⟩
  · rw [typeAt?_of_read opens.read, typeAt?_of_read opens'.read, get?_type_insert flawless nodes]
  · have shallow := opens.shallow
    obtain _ | levels := levels
    · omega
    · rw [check_succ opens.read opens.known, check_succ opens'.read opens'.known]
      exact same levels (by omega)

theorem Isolates.child {found site : Site} {new value : Json} {steps : List Segment}
    (opens : validator.Opens site schema object) (flawless : schema.flaw? = none)
    (array : object.get? "children" = some (.array items)) (item : items[place]? = some value)
    (lower : validator.Isolates found new (site.child schema place value) steps) :
    validator.Isolates found new site (.index place :: steps) := by
  have nodes : schema.HoldsNodes "children" := .inl rfl
  have path : found.path.segments = site.path.segments ++ .index place :: steps := by
    simpa [Site.child, Path.child] using lower.path
  refine .up opens flawless nodes (Json.modifyItem_eq opens.read array _ _) path ?_ ?_
  · intro opens'
    have below : validator.Below (site.replace (.index place :: steps) new)
        ((site.child schema place value).replace steps new) :=
      .child opens' (KeyMap.get?_insert_self ..) (by simp [item, Site.child])
    exact (Checked.start.step below).trans lower.checked
  · intro levels deep
    refine read_checkNode_insert _ flawless nodes array _ (fun other => absurd rfl other) ?_
    intro _ child at'
    obtain rfl : value = child := Option.some.inj (item.symm.trans at')
    have below := lower.same levels deep
    -- The object looks at the type of its child, which may change where the child is replaced.
    obtain here | type := lower.type
    · rw [← here]
      exact (outside_checkChild deep ..).trans (outside_checkChild deep ..).symm
    · exact read_checkChild_congr _ type below

theorem Isolates.element {found site : Site} {new value : Json} {steps : List Segment}
    {spec : FieldSpec} (opens : validator.Opens site schema object)
    (flawless : schema.flaw? = none) (declared : schema.fields.get? key = some spec)
    (kind : spec.kind = .nodeList) (array : object.get? key = some (.array items))
    (item : items[place]? = some value)
    (lower : validator.Isolates found new (site.element key place value) steps) :
    validator.Isolates found new site (.field key :: .index place :: steps) := by
  have nodes : schema.HoldsNodes key := .inr ⟨spec, declared, kind⟩
  have path : found.path.segments = site.path.segments ++ .field key :: .index place :: steps := by
    simpa [Site.element, Path.element] using lower.path
  refine .up opens flawless nodes (Json.modifyItem_eq opens.read array _ _) path ?_ ?_
  · intro opens'
    have below : validator.Below (site.replace (.field key :: .index place :: steps) new)
        ((site.element key place value).replace steps new) :=
      .element opens' declared kind (KeyMap.get?_insert_self ..) (by simp [item, Site.element])
    exact (Checked.start.step below).trans lower.checked
  · intro levels deep
    refine read_checkNode_insert _ flawless nodes array _ ?_ ?_
    · intro _ element at'
      obtain rfl : value = element := Option.some.inj (item.symm.trans at')
      exact lower.same levels deep
    · rintro rfl
      cases Schema.declared_not_base flawless declared

/-! ## Documents -/

theorem isolates_of_checked (sound : validator.registry.Sound) {start found : Site}
    (checked : validator.Checked start found) (new : Json) :
    ∃ steps, validator.Isolates found new start steps := by
  -- A replacement takes its steps from the outside in, so they are put together from the site up.
  refine checked.head_induction (motive := fun site => ∃ steps, validator.Isolates found new site
    steps) ⟨[], .start found new⟩ ?_
  rintro site next below - ⟨steps, lower⟩
  cases below with
  | child opens array item =>
    have flawless := (schemaOf?_eq_some sound opens.known).2.2
    exact ⟨_, lower.child opens flawless array item⟩
  | element opens declared kind array item =>
    have flawless := (schemaOf?_eq_some sound opens.known).2.2
    exact ⟨_, lower.element opens flawless declared kind array item⟩

/-- **A value shows in the violations at or below it only.** When the value at a checked site of a
document is replaced by any other value, this value is checked there, and the violations of the
document that are not on a path from there on are the same ones, in the same order. -/
theorem replaceAt_isolated (reachable : validator.registry.Reachable) {document : Json}
    {site : Site} (checked : validator.Checked (Site.root document) site) (new : Json) :
    validator.Checked (Site.root (document.replaceAt site.path new)) { site with value := new } ∧
    validator.violationsOutside site.path (document.replaceAt site.path new) =
      validator.violationsOutside site.path document := by
  obtain ⟨steps, isolates⟩ := isolates_of_checked reachable.sound checked new
  obtain rfl : site.path.segments = steps := isolates.path
  refine ⟨isolates.checked, ?_⟩
  rw [violationsOutside, violationsOutside, violations_eq, violations_eq]
  exact (isolates.same _ (Nat.add_zero _)).symm

end Validator

/-- A box with a key that boxes do not declare, around a figure without a label and a null. -/
def Sample.troubled : Json :=
  .object
    [("children", .array [.object [("type", .string "Figure")], .null]), ("size", .bool true),
      ("type", .string "Box")]

namespace Validator

/-- In place of the figure without a label there may stand anything: what is wrong with the box and
with the null stays as it was. -/
theorem replaceAt_isolated_troubled :
    Sample.registry.Reachable ∧
      Sample.validator.Checked (Site.root Sample.troubled)
        ((Site.root Sample.troubled).child Sample.box 0 (.object [("type", .string "Figure")])) ∧
      (Sample.validator.violations Sample.troubled).map Violation.failure =
        [(.root, .unexpectedField), (Path.root.child 0, .missingField),
          (Path.root.child 1, .contentShape)] ∧
      ∀ new, (Sample.validator.violationsOutside (Path.root.child 0)
          (Sample.troubled.replaceAt (Path.root.child 0) new)).map Violation.failure =
        [(.root, .unexpectedField), (Path.root.child 1, .contentShape)] := by
  have reachable : Sample.validator.registry.Reachable := Sample.reachable_registry
  have opens : Sample.validator.Opens (Site.root Sample.troubled) Sample.box
      (KeyMap.ofList [("children", .array [.object [("type", .string "Figure")], .null]),
        ("size", .bool true), ("type", .string "Box")]) := ⟨by decide, rfl, rfl⟩
  have checked : Sample.validator.Checked (Site.root Sample.troubled)
      ((Site.root Sample.troubled).child Sample.box 0 (.object [("type", .string "Figure")])) :=
    .step .start (.child opens rfl rfl)
  refine ⟨reachable, checked, rfl, fun new => ?_⟩
  have same := (replaceAt_isolated reachable checked new).2
  exact (congrArg (List.map Violation.failure) same).trans rfl

end Validator
end DocTree
