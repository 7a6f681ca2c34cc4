import DocTree.Proofs.CommandLine.Checking
import DocTree.Proofs.Text.Parts
import DocTree.Proofs.Validation.Addresses

/-!
# Locations in reports

A report shows a violation at the written form of its path. Where no list of nodes has a name that
is written like an index or like several steps, a path is known by its written form, so violations
at different places are shown at different locations.

## Main definitions

* `Segment.Distinctive` — a name that is written like one step and like no index.
* `Segment.Plain`, `Path.Plain` — a step, and a path, whose names are of this kind.
* `Registry.NamesLists` — a registry whose lists of nodes have such names.
* `Violation.remark` — what a report says of a violation after its location.

## Main statements

* `Segment.text_inj`, `Path.text_inj` — plain steps and paths are known by their written forms.
* `Validator.Checked.plain` — the paths of a document are plain.
* `CommandLine.locations_tell_apart` — the locations of violations tell their places apart.
-/

namespace DocTree

/-! ## Steps -/

namespace Segment

variable {s t : Segment}

/-- A name has no slash, and it has a character that is no decimal digit; so it is not empty. -/
structure Distinctive (name : String) : Prop where
  unbroken : '/' ∉ name.toList
  wordy : ∃ c ∈ name.toList, c.isDigit = false

/-- A step is an index, or it is named like no index and like no two steps. -/
def Plain : Segment → Prop
  | .index _ => True
  | .field name => Distinctive name

theorem isDigit_of_mem_repr {place : Nat} {c : Char} (mem : c ∈ place.repr.toList) :
    c.isDigit = true := by
  rw [Nat.repr_eq_ofList_toDigits, String.toList_ofList] at mem
  exact Nat.isDigit_of_mem_toDigits (by decide) (by decide) mem

theorem Plain.unbroken (plain : s.Plain) : '/' ∉ s.text.toList := by
  cases s with
  | index place =>
    intro mem
    cases isDigit_of_mem_repr mem
  | field name => exact Distinctive.unbroken plain

theorem Plain.text_nonempty (plain : s.Plain) : s.text.toList ≠ [] := by
  cases s with
  | index place => simp [text]
  | field name =>
    obtain ⟨c, mem, -⟩ := Distinctive.wordy plain
    exact List.ne_nil_of_mem mem

/-- An index is read off its digits. -/
theorem index_eq_of_repr_eq {i j : Nat} (same : i.repr = j.repr) : i = j := by
  rw [Nat.repr_eq_ofList_toDigits, Nat.repr_eq_ofList_toDigits, String.ofList_inj] at same
  rw [← @Nat.ofDigitChars_ten_toDigits i, same, Nat.ofDigitChars_ten_toDigits]

/-- Plain steps are known by their written forms. -/
theorem text_inj (plain : s.Plain) (plain' : t.Plain) : s.text = t.text ↔ s = t := by
  have apart : ∀ (place : Nat) (name : String), Distinctive name → place.repr ≠ name := by
    rintro place _ ⟨-, c, mem, letter⟩ rfl
    rw [isDigit_of_mem_repr mem] at letter
    cases letter
  refine ⟨fun same => ?_, fun same => same ▸ rfl⟩
  cases s <;> cases t
  case index.index i j => exact congrArg index (index_eq_of_repr_eq same)
  case index.field place name => exact absurd same (apart place name plain')
  case field.index name place => exact absurd same.symm (apart place name plain)
  case field.field => exact congrArg field same

/-- So are lists of plain steps. -/
theorem map_text_inj {steps steps' : List Segment} (plain : ∀ step ∈ steps, step.Plain)
    (plain' : ∀ step ∈ steps', step.Plain)
    (same : steps.map (·.text.toList) = steps'.map (·.text.toList)) : steps = steps' := by
  induction steps generalizing steps' with
  | nil => exact (List.map_eq_nil_iff.1 same.symm).symm
  | cons step steps ih =>
    obtain ⟨step', steps', rfl, here, rest⟩ := List.map_eq_cons_iff.1 same.symm
    obtain ⟨first, later⟩ := List.forall_mem_cons.1 plain
    obtain ⟨first', later'⟩ := List.forall_mem_cons.1 plain'
    rw [(text_inj first first').1 (String.toList_inj.1 here.symm), ih later later' rest.symm]

end Segment

/-! ## Paths -/

namespace Path

variable {p q : Path}

/-- All steps of a path are plain. -/
def Plain (path : Path) : Prop := ∀ step ∈ path.segments, step.Plain

theorem plain_root : root.Plain := by
  simp [Plain]

theorem Plain.push {step : Segment} (plain : p.Plain) (last : step.Plain) :
    (p.push step).Plain := by
  intro other mem
  rw [segments_push, List.mem_append, List.mem_singleton] at mem
  rcases mem with before | rfl
  · exact plain other before
  · exact last

/-- The written form of a path has a slash before each step, and one for the root. -/
theorem toList_text (path : Path) :
    path.text.toList = '/' :: ['/'].intercalate (path.segments.map (·.text.toList)) := by
  cases steps : path.segments with
  | nil =>
    obtain rfl : path = root := segments_inj.1 steps
    rfl
  | cons step rest =>
    have away : path.isRoot = false := by
      cases path with
      | mk upward => cases upward <;> simp_all [segments, isRoot]
    rw [List.map_cons, Text.intercalate_cons, text, away]
    simp [steps, List.flatMap_map]

/-- Cut at its slashes, the written form of a path gives those of its steps. -/
theorem Plain.parts_text (plain : p.Plain) :
    (Text.splitAt '/' p.text.toList).filter (· ≠ []) = p.segments.map (·.text.toList) := by
  have kept : (p.segments.map (·.text.toList)).filter (· ≠ []) =
      p.segments.map (·.text.toList) := by
    refine List.filter_eq_self.2 fun part mem => ?_
    obtain ⟨step, listed, rfl⟩ := List.mem_map.1 mem
    simpa using (plain step listed).text_nonempty
  have front : Text.splitAt '/' p.text.toList =
      [] :: Text.splitAt '/' (['/'].intercalate (p.segments.map (·.text.toList))) := by
    rw [toList_text]
    rfl
  rw [front]
  cases steps : p.segments with
  | nil => rfl
  | cons step rest =>
    have parts : Text.splitAt '/' (['/'].intercalate (p.segments.map (·.text.toList))) =
        p.segments.map (·.text.toList) := by
      refine Text.splits_iff.1 ⟨by simp [steps], fun part mem => ?_, rfl⟩
      obtain ⟨step, listed, rfl⟩ := List.mem_map.1 mem
      exact (plain step listed).unbroken
    rw [← steps, parts, List.filter_cons_of_neg (by simp), kept]

/-- Plain paths are known by their written forms. -/
theorem text_inj (plain : p.Plain) (plain' : q.Plain) : p.text = q.text ↔ p = q := by
  refine ⟨fun same => segments_inj.1 (Segment.map_text_inj plain plain' ?_), fun same => same ▸ rfl⟩
  rw [← plain.parts_text, ← plain'.parts_text, same]

/-- A name of digits is written like an index, and a name with a slash like two steps. -/
example : (root.element "0" 1).text = ((root.child 0).child 1).text ∧
    (root.element "a/2/b" 1).text = ((root.element "a" 2).element "b" 1).text := ⟨rfl, rfl⟩

end Path

/-! ## Documents -/

/-- The lists of nodes that types of a registry declare have distinctive names. -/
def Registry.NamesLists (registry : Registry) : Prop :=
  ∀ name schema field spec, registry.get? name = some schema →
    schema.fields.get? field = some spec → spec.kind = .nodeList → Segment.Distinctive field

namespace Validator

variable {validator : Validator} {site next found : Site} {document : Json}
  {violation : Violation}

/-- One step down adds an index, perhaps after the name of a declared list of nodes. -/
theorem Below.plain (names : validator.registry.NamesLists) (below : validator.Below site next)
    (plain : site.path.Plain) : next.path.Plain := by
  cases below with
  | child => exact plain.push trivial
  | element opens declared kind =>
    obtain ⟨name, -, known⟩ := Option.bind_eq_some_iff.1 opens.known
    have listed : (Segment.field _).Plain := names name _ _ _ known declared kind
    exact (plain.push listed).push trivial

/-- The paths of a document are plain. -/
theorem Checked.plain (names : validator.registry.NamesLists)
    (checked : validator.Checked (Site.root document) found) : found.path.Plain := by
  induction checked with
  | start => exact Path.plain_root
  | step _ below ih => exact below.plain names ih

theorem plain_of_mem_violations (names : validator.registry.NamesLists)
    (mem : violation ∈ validator.violations document) : violation.path.Plain := by
  obtain ⟨site, checked, raised⟩ := Raised.of_mem_violations mem
  rw [raised.path_eq]
  exact checked.plain names

/-- Violations of a document are at the same place when they are shown at the same location. -/
theorem location_inj_of_mem_violations {other : Violation} (names : validator.registry.NamesLists)
    (mem : violation ∈ validator.violations document)
    (mem' : other ∈ validator.violations document) :
    violation.path.text = other.path.text ↔ violation.path = other.path :=
  Path.text_inj (plain_of_mem_violations names mem) (plain_of_mem_violations names mem')

end Validator

/-! ## Reports -/

/-- What a report says of a violation after its location. -/
def Violation.remark (violation : Violation) : String :=
  violation.typeName.elim " " (fun name => " [" ++ name ++ "] ") ++
    violation.kind.name ++ ": " ++ violation.message

theorem Violation.text_eq (violation : Violation) :
    violation.text = violation.path.text ++ violation.remark := by
  obtain ⟨path, kind, message, typeName⟩ := violation
  cases typeName <;> simp [text, remark, String.append_assoc]

namespace CommandLine

variable {name : String}

/-- The violations in the report on a file are those of a document; else there are none. -/
theorem FileReport.exists_document (engine : Engine) (files : Files) (name : String) :
    (FileReport.ofFile engine files name).violations = [] ∨
      ∃ document, FileReport.ofFile engine files name =
        ⟨name, none, engine.validator.violations document⟩ := by
  cases read : files name with
  | error reason =>
    rw [ofFile, readFile, read]
    exact .inl rfl
  | ok text =>
    obtain ⟨listed, refused⟩ := ofFile_of_text engine read
    cases taken : Engine.ingest text with
    | error error =>
      have checked : (engine.checkText text).result = .error error := by
        rw [Engine.checkText, taken]
      rw [refused _ checked]
      exact .inl rfl
    | ok document => exact .inr ⟨document, listed _ (Engine.checkText_eq taken)⟩

/-- A report has a line for each violation, with its location and what else there is to say. -/
theorem FileReport.lines_eq {violations : List Violation} (found : violations ≠ []) :
    FileReport.lines ⟨name, none, violations⟩ = violations.map fun violation =>
      name ++ ":" ++ violation.path.text ++ violation.remark := by
  simp [lines, found, Violation.text_eq, String.append_assoc]

/-- **Locations tell places apart.** Paths whose names have no slash and are no numbers are known by
their written forms. So where the declared lists of nodes have such names, violations at different
places of a document are never shown at the same location, and neither are those in the report on a
file, which has a line for each violation that begins with its location. -/
theorem locations_tell_apart :
    (∀ p q : Path, p.Plain → q.Plain → (p.text = q.text ↔ p = q)) ∧
    (∀ (validator : Validator) (document : Json), validator.registry.NamesLists →
      ∀ v ∈ validator.violations document, ∀ w ∈ validator.violations document,
        v.path.text = w.path.text ↔ v.path = w.path) ∧
    ∀ (engine : Engine) (files : Files) (name : String), engine.registry.NamesLists →
      let report := FileReport.ofFile engine files name
      (report.violations ≠ [] → report.lines = report.violations.map fun violation =>
        name ++ ":" ++ violation.path.text ++ violation.remark) ∧
      ∀ v ∈ report.violations, ∀ w ∈ report.violations,
        v.path.text = w.path.text ↔ v.path = w.path := by
  refine ⟨fun p q plain plain' => Path.text_inj plain plain',
    fun validator document names v mem w mem' =>
      Validator.location_inj_of_mem_violations names mem mem',
    fun engine files name names => ?_⟩
  have lists : engine.validator.registry.NamesLists := names
  dsimp only
  obtain nothing | ⟨document, listed⟩ := FileReport.exists_document engine files name
  · simp [nothing]
  · rw [listed]
    exact ⟨FileReport.lines_eq, fun v mem w mem' =>
      Validator.location_inj_of_mem_violations lists mem mem'⟩

end CommandLine

/-! ## The sample -/

theorem Sample.distinctive_items : Segment.Distinctive "items" :=
  ⟨by decide, 'i', by decide, rfl⟩

theorem Sample.namesLists : Sample.registry.NamesLists := by
  intro name schema field spec known declared kind
  have registered : (name, schema) ∈ [("Box", Sample.box), ("Figure", Sample.figure)] :=
    KeyMap.mem_entries_iff.2 known
  simp only [List.mem_cons, Prod.mk.injEq, List.not_mem_nil, or_false] at registered
  obtain ⟨-, rfl⟩ | ⟨-, rfl⟩ := registered
  · have listed : (field, spec) ∈ [("items", { kind := .nodeList })] :=
      KeyMap.mem_entries_iff.2 declared
    obtain ⟨rfl, -⟩ := Prod.mk.inj (List.mem_singleton.1 listed)
    exact distinctive_items
  · obtain ⟨-, rfl⟩ := Sample.fields_figure declared
    cases kind

namespace CommandLine

/-- A file with a box that has a figure without a label as its child, and one as an item. -/
def Sample.unlabelled : Files := fun _ => .ok <|
  "\x7b\"type\":\"Box\",\"children\":[\x7b\"type\":\"Figure\"\x7d]," ++
    "\"items\":[\x7b\"type\":\"Figure\"\x7d]\x7d"

/-- The type that nobody knows and the figure without a label are shown at different locations, and
so are the two figures in the file, of which the report says the same. -/
theorem locations_tell_apart_unlabelled :
    Sample.registry.NamesLists ∧
      (Path.root.element "items" 1).Plain ∧ (Path.root.child 0).Plain ∧
      (Path.root.element "items" 1).text ≠ (Path.root.child 0).text ∧
      (∃ v ∈ Sample.validator.violations Sample.scattered,
        ∃ w ∈ Sample.validator.violations Sample.scattered, v.path.text ≠ w.path.text) ∧
      (FileReport.ofFile ⟨Sample.registry, {}⟩ Sample.unlabelled "page").lines =
        ["page:/items/0 [Figure] MissingFieldError: required field 'label' is missing",
          "page:/0 [Figure] MissingFieldError: required field 'label' is missing"] ∧
      ∃ v ∈ (FileReport.ofFile ⟨Sample.registry, {}⟩ Sample.unlabelled "page").violations,
        ∃ w ∈ (FileReport.ofFile ⟨Sample.registry, {}⟩ Sample.unlabelled "page").violations,
          v.path.text ≠ w.path.text ∧ v.remark = w.remark := by
  obtain ⟨paths, documents, reports⟩ := locations_tell_apart
  have items : (Segment.field "items").Plain := Sample.distinctive_items
  have item : (Path.root.element "items" 1).Plain := (Path.plain_root.push items).push trivial
  have child : (Path.root.child 0).Plain := Path.plain_root.push trivial
  have ghost : (Breach.typeUnknown "Ghost").violation (Path.root.element "items" 1) (some "Ghost") ∈
      Sample.validator.violations Sample.scattered := .tail _ (.head _)
  have figure : (Breach.fieldAbsent "label").violation (Path.root.child 0) (some "Figure") ∈
      Sample.validator.violations Sample.scattered := .tail _ (.tail _ (.head _))
  have listed : (FileReport.ofFile ⟨Sample.registry, {}⟩ Sample.unlabelled "page").violations =
      [(Breach.fieldAbsent "label").violation (Path.root.element "items" 0) (some "Figure"),
        (Breach.fieldAbsent "label").violation (Path.root.child 0) (some "Figure")] := rfl
  obtain ⟨lines, places⟩ := reports ⟨Sample.registry, {}⟩ Sample.unlabelled "page" Sample.namesLists
  refine ⟨Sample.namesLists, item, child, mt (paths _ _ item child).1 (by decide),
    ⟨_, ghost, _, figure,
      mt (documents _ _ Sample.namesLists _ ghost _ figure).1 (by decide)⟩,
    ?_, ?_⟩
  · rw [lines (by simp [listed]), listed]
    rfl
  · rw [listed] at places ⊢
    exact ⟨_, List.mem_cons_self, _, .tail _ (.head _),
      mt (places _ List.mem_cons_self _ (.tail _ (.head _))).1 (by decide), rfl⟩

end CommandLine
end DocTree
