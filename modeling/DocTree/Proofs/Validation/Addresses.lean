import DocTree.Proofs.Registry.Reachable
import DocTree.Proofs.Validation.Isolation

/-!
# Violations can be looked up

The path of a violation leads from the document to the value that was judged, through the arrays of
children and the declared lists of nodes, and the violation names the type that this value names.

## Main definitions

* `Json.item?` — an item of the array under a key of an object.
* `Validator.lists` — whether the type of an object declares a list of nodes.
* `Validator.valueAt?` — the value at the end of a path.
* `Json.typeName?` — the name of the type of a value.

## Main statements

* `Validator.Checked.valueAt?` — the path of a checked site leads to its value.
* `Validator.Raised.typeName_eq` — a violation names the type of the value that it was raised at.
* `Validator.violation_addressed` — both of them, for all violations of a document.
-/

namespace DocTree

/-! ## Paths in documents -/

namespace Json

/-- An item of the array under a key of an object. -/
def item? (value : Json) (key : String) (place : Nat) : Option Json :=
  value.map?.bind fun object => (itemsAt object key)[place]?

/-- The name of the type of a value, when it is a string. -/
def typeName? (value : Json) : Option String := (Validator.typeAt? value).bind string?

theorem item?_eq {value : Json} {object : KeyMap Json} {key : String} {items : List Json}
    (read : value.map? = some object) (array : object.get? key = some (.array items))
    (place : Nat) : value.item? key place = items[place]? := by
  rw [item?, read, Option.bind_some, itemsAt_of_array array]

end Json

namespace Validator

variable {validator : Validator} {site found next : Site} {violation : Violation}

/-- Whether the type of an object declares a field as a list of nodes. -/
def lists (validator : Validator) (value : Json) (field : String) : Bool :=
  ((value.map?.bind validator.schemaOf?).bind (·.fields.get? field)).any (·.kind = .nodeList)

/-- The value at the end of some steps. An index alone leads to a child. The name of a field is
followed by an index, and both together lead to an item of a declared list of nodes. -/
def descend (validator : Validator) (value : Json) : List Segment → Option Json
  | [] => some value
  | .index place :: rest =>
    (value.item? "children" place).bind fun child => validator.descend child rest
  | .field field :: .index place :: rest =>
    if validator.lists value field then
      (value.item? field place).bind fun item => validator.descend item rest
    else none
  | .field _ :: _ => none

/-- The value at the end of a path in a document. -/
def valueAt? (validator : Validator) (document : Json) (path : Path) : Option Json :=
  validator.descend document path.segments

theorem Opens.lists {schema : Schema} {object : KeyMap Json} {field : String} {spec : FieldSpec}
    (opens : validator.Opens site schema object) (declared : schema.fields.get? field = some spec)
    (kind : spec.kind = .nodeList) : validator.lists site.value field = true := by
  simp [Validator.lists, opens.read, opens.known, declared, kind]

/-- The steps from a site to one right below it lead from value to value. -/
theorem Below.descend (below : validator.Below site next) :
    ∃ steps, next.path.segments = site.path.segments ++ steps ∧
      ∀ rest, validator.descend site.value (steps ++ rest) = validator.descend next.value rest := by
  cases below with
  | @child schema object items place value opens array item =>
    refine ⟨[.index place], by simp [Site.child, Path.child], fun rest => ?_⟩
    rw [List.singleton_append, Validator.descend, Json.item?_eq opens.read array, item]
    rfl
  | @element schema object field spec items place value opens declared kind array item =>
    refine ⟨[.field field, .index place], by simp [Site.element, Path.element], fun rest => ?_⟩
    rw [List.cons_append, List.singleton_append, Validator.descend,
      if_pos (opens.lists declared kind), Json.item?_eq opens.read array, item]
    rfl

/-- The steps from a site to one that is checked from there on lead from value to value. -/
theorem Checked.descend (checked : validator.Checked site found) :
    ∃ steps, found.path.segments = site.path.segments ++ steps ∧
      validator.descend site.value steps = some found.value := by
  refine checked.head_induction (motive := fun site => ∃ steps,
    found.path.segments = site.path.segments ++ steps ∧
      validator.descend site.value steps = some found.value) ⟨[], by simp, rfl⟩ ?_
  rintro site next below - ⟨rest, path, leads⟩
  obtain ⟨steps, longer, descends⟩ := below.descend
  exact ⟨steps ++ rest, by rw [path, longer, List.append_assoc], (descends rest).trans leads⟩

/-- The path of a site of a document leads to its value. -/
theorem Checked.valueAt? {document : Json}
    (checked : validator.Checked (Site.root document) found) :
    validator.valueAt? document found.path = some found.value := by
  obtain ⟨steps, path, leads⟩ := checked.descend
  rw [Validator.valueAt?, path]
  exact leads

/-! ## The types of violations -/

theorem typeName?_of_read {value : Json} {object : KeyMap Json} (read : value.map? = some object) :
    value.typeName? = (object.get? "type").bind Json.string? := by
  rw [Json.typeName?, typeAt?_of_read read]

/-- An object that has no known type is reported under the name that it gives. -/
theorem name_of_typeOf_eq_error {object : KeyMap Json} {breach : Breach} {name : Option String}
    (untyped : validator.typeOf object = .error (breach, name)) :
    name = (object.get? "type").bind Json.string? := by
  unfold typeOf at untyped
  cases given : object.get? "type" with
  | none =>
    rw [given] at untyped
    cases untyped
    rfl
  | some found =>
    rw [given] at untyped
    cases found with
    | string called =>
      cases known : validator.registry.get? called with
      | none =>
        simp only [known] at untyped
        cases untyped
        rfl
      | some schema =>
        simp only [known] at untyped
        cases untyped
    | _ =>
      cases untyped
      rfl

/-- A registered type has the name that objects call it by. -/
theorem name_of_schemaOf? (sound : validator.registry.Sound) {object : KeyMap Json}
    {schema : Schema} (known : validator.schemaOf? object = some schema) :
    (object.get? "type").bind Json.string? = some schema.name := by
  obtain ⟨name, named, registered⟩ := Option.bind_eq_some_iff.1 known
  rw [named, (sound name schema registered).1]

/-- A child is refused under the name of its type. -/
theorem name_of_childBreach? {parent : Schema} {place : Nat} {child : Json} {breach : Breach}
    {name : String} (refused : validator.childBreach? parent place child = some (breach, name)) :
    child.typeName? = some name := by
  unfold childBreach? at refused
  obtain ⟨object, read, refused⟩ := Option.bind_eq_some_iff.1 refused
  obtain ⟨type, given, refused⟩ := Option.bind_eq_some_iff.1 refused
  obtain ⟨called, named, refused⟩ := Option.bind_eq_some_iff.1 refused
  obtain ⟨schema, -, refused⟩ := Option.bind_eq_some_iff.1 refused
  rw [typeName?_of_read read, given, Option.bind_some, named]
  split at refused
  · cases refused
  · cases refused
    rfl

/-- A violation names the type of the value that it was raised at. -/
theorem Raised.typeName_eq (sound : validator.registry.Sound)
    (raised : validator.Raised site violation) : violation.typeName = site.value.typeName? := by
  cases raised with
  | notNode read => rw [Json.typeName?, typeAt?, read]; rfl
  | tooDeep read => exact (typeName?_of_read read).symm
  | untyped read _ untyped =>
    exact (name_of_typeOf_eq_error untyped).trans (typeName?_of_read read).symm
  | breach opens _ =>
    exact ((typeName?_of_read opens.read).trans (name_of_schemaOf? sound opens.known)).symm
  | refused _ refused => exact (name_of_childBreach? refused).symm

/-- **Violations can be looked up.** The path of each violation of a document leads to a value, and
the violation names the type that this value names, or none when it names none by a string. -/
theorem violation_addressed (reachable : validator.registry.Reachable) {document : Json}
    (mem : violation ∈ validator.violations document) :
    ∃ value, validator.valueAt? document violation.path = some value ∧
      violation.typeName = value.typeName? := by
  obtain ⟨site, checked, raised⟩ := Raised.of_mem_violations mem
  exact ⟨site.value, raised.path_eq ▸ checked.valueAt?, raised.typeName_eq reachable.sound⟩

end Validator

/-! ## The sample -/

/-- A box whose items are a box with a null in it, and an object of a type that nobody knows. -/
def Sample.scattered : Json :=
  .object
    [("children", .array [.object [("type", .string "Figure")]]),
      ("items", .array
        [.object [("children", .array [.null]), ("type", .string "Box")],
          .object [("type", .string "Ghost")]]),
      ("type", .string "Box")]

namespace Validator

/-- The null, the object of no known type and the figure without a label are all found under their
paths, and the object of no known type is reported under the name that it gives. -/
theorem violation_addressed_scattered :
    Sample.registry.Reachable ∧
      (Sample.validator.violations Sample.scattered).map (fun found =>
          (found.path, found.typeName)) =
        [((Path.root.element "items" 0).child 0, none), (Path.root.element "items" 1, some "Ghost"),
          (Path.root.child 0, some "Figure")] ∧
      (Breach.typeUnknown "Ghost").violation (Path.root.element "items" 1) (some "Ghost") ∈
        Sample.validator.violations Sample.scattered ∧
      ∃ value,
        Sample.validator.valueAt? Sample.scattered (Path.root.element "items" 1) = some value ∧
          some "Ghost" = value.typeName? := by
  have reachable : Sample.validator.registry.Reachable := Sample.reachable_registry
  have mem : (Breach.typeUnknown "Ghost").violation (Path.root.element "items" 1) (some "Ghost") ∈
      Sample.validator.violations Sample.scattered := .tail _ (.head _)
  exact ⟨reachable, rfl, mem, violation_addressed reachable mem⟩

end Validator
end DocTree
