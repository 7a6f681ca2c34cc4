import DocTree.Proofs.Validation.Acceptance
import DocTree.Proofs.Validation.Forms

/-!
# Lenient settings

Settings that allow more depth, a wider window for promoted fields, or old forms at all, accept
every document that stricter ones accept, as the same tree. When the depth is the same, they find
the same violations but for fields that are missing no longer.

## Main definitions

* `ValidationSettings.AtMost` — settings that allow no more than others.
* `Violation.Excused` — a list of violations from which missing fields were dropped.
* `Findings.Lenience` — a relation of what two checks find, told part by part.

## Main statements

* `Findings.Lenience.check_succ` — two checks find related violations when the checks of the values
  below do.
* `Validator.excused_check` — at the same depth the lenient check drops missing fields only.
* `Validator.node_check_of_clean` — a value without violations has the same tree in both checks.
* `Validator.validate_monotone` — lenient settings accept more documents, and the same trees.
-/

namespace DocTree

/-! ## Definitions -/

/-- The strict settings allow no more than the lenient ones. -/
structure ValidationSettings.AtMost (strict lenient : ValidationSettings) : Prop where
  maxDepth : strict.maxDepth ≤ lenient.maxDepth
  compatibilityWindow : strict.compatibilityWindow ≤ lenient.compatibilityWindow
  acceptLegacyData : strict.acceptLegacyData = true → lenient.acceptLegacyData = true

/-- The second list is the first one without some of its violations, and all others of them than
missing fields are still there. -/
structure Violation.Excused (strict lenient : List Violation) : Prop where
  sublist : lenient.Sublist strict
  others : lenient.filter (·.kind != .missingField) = strict.filter (·.kind != .missingField)

/-- A relation of the violations that two checks find: it is told part by part, a list is related to
itself, and the second check may do without a missing field. -/
structure Findings.Lenience (R : List Violation → List Violation → Prop) : Prop where
  refl : ∀ violations, R violations violations
  append : ∀ {x y z w}, R x y → R z w → R (x ++ z) (y ++ w)
  missing : ∀ violation, violation.kind = .missingField → R [violation] []

theorem Violation.lenience_excused : Findings.Lenience Violation.Excused where
  refl violations := ⟨.refl violations, rfl⟩
  append first second := ⟨first.sublist.append second.sublist, by
    rw [List.filter_append, List.filter_append, first.others, second.others]⟩
  missing violation kind := ⟨List.nil_sublist _, by simp [kind]⟩

/-- Where the first check finds nothing, the second one does not either. -/
theorem Violation.lenience_clean :
    Findings.Lenience fun strict lenient => strict = [] → lenient = [] where
  refl _ := id
  append first second clean := by
    obtain ⟨left, right⟩ := List.append_eq_nil_iff.1 clean
    rw [first left, second right, List.append_nil]
  missing _ _ clean := by cases clean

/-! ## Promoted fields -/

namespace Validator

variable {registry : Registry} {strict lenient : ValidationSettings}

/-- What strict settings excuse, lenient ones excuse. -/
theorem coversLegacy_mono (le : strict.AtMost lenient) {schema : Schema} {spec : FieldSpec}
    {data : Option (KeyMap Json)} (h : coversLegacy ⟨registry, strict⟩ schema spec data = true) :
    coversLegacy ⟨registry, lenient⟩ schema spec data = true := by
  simp only [coversLegacy, Bool.and_eq_true, Option.any_eq_true, decide_eq_true_eq] at h ⊢
  obtain ⟨legacy, origin, promoted, recent, left⟩ := h
  have window := UInt32.le_iff_toNat_le.1 le.compatibilityWindow
  exact ⟨le.acceptLegacyData legacy, origin, promoted, Nat.le_trans recent window, left⟩

theorem isSome_legacyKey_mono (le : strict.AtMost lenient) {schema : Schema} {spec : FieldSpec}
    {object : KeyMap Json} (h : (legacyKey? ⟨registry, strict⟩ schema spec object).isSome = true) :
    (legacyKey? ⟨registry, lenient⟩ schema spec object).isSome = true := by
  rw [isSome_legacyKey] at h ⊢
  exact coversLegacy_mono le h

end Validator

/-! ## Two checks -/

namespace Findings.Lenience

variable {R : List Violation → List Violation → Prop} (h : Lenience R) {registry : Registry}
  {strict lenient : ValidationSettings} {check check' : Path → Json → Verdict} {path : Path}
  {schema : Schema} {object : KeyMap Json}

include h

theorem flatMap {α : Type} {items : List α} {f g : α → List Violation}
    (parts : ∀ item ∈ items, R (f item) (g item)) : R (items.flatMap f) (items.flatMap g) := by
  induction items with
  | nil => exact h.refl []
  | cons item items ih =>
    obtain ⟨first, later⟩ := List.forall_mem_cons.1 parts
    exact h.append first (ih later)

theorem join_mapIdx {α : Type} (items : List α) {f g : Nat → α → Findings}
    (parts : ∀ place item, R (f place item).violations (g place item).violations) :
    R (join (items.mapIdx f)).violations (join (items.mapIdx g)).violations := by
  rw [violations_join, violations_join, List.mapIdx_eq_zipIdx_map, List.mapIdx_eq_zipIdx_map,
    List.flatMap_map, List.flatMap_map]
  exact h.flatMap fun (item, place) _ => parts place item

variable (le : strict.AtMost lenient)
  (below : ∀ path value, R (check path value).findings.violations
    (check' path value).findings.violations)

include le below

theorem checkField (field : String) (spec : FieldSpec) :
    R (Validator.checkField ⟨registry, strict⟩ check path schema object field spec).violations
      (Validator.checkField ⟨registry, lenient⟩ check' path schema object field
        spec).violations := by
  unfold Validator.checkField
  cases object.get? field with
  | some value =>
    dsimp only
    split
    · exact h.refl _
    · split
      · exact h.join_mapIdx _ fun place item => below _ item
      · exact h.refl _
  | none =>
    dsimp only
    split
    · have mono : (Validator.legacyKey? ⟨registry, strict⟩ schema spec object).isSome = true →
          (Validator.legacyKey? ⟨registry, lenient⟩ schema spec object).isSome = true :=
        Validator.isSome_legacyKey_mono le
      generalize Validator.legacyKey? ⟨registry, strict⟩ schema spec object = key at mono ⊢
      generalize Validator.legacyKey? ⟨registry, lenient⟩ schema spec object = key' at mono ⊢
      cases key <;> cases key'
      · exact h.refl _
      · exact h.missing _ rfl
      · cases mono rfl
      · exact h.refl _
    · exact h.refl _

theorem checkFields :
    R (Validator.checkFields ⟨registry, strict⟩ check path schema object).violations
      (Validator.checkFields ⟨registry, lenient⟩ check' path schema object).violations := by
  simp only [Validator.checkFields, violations_append, violations_join, List.flatMap_map]
  exact h.append (h.append (h.refl _) (h.flatMap fun entry _ =>
    h.checkField le below entry.1 entry.2)) (h.refl _)

theorem checkNode :
    R (Validator.checkNode ⟨registry, strict⟩ check path schema object).findings.violations
      (Validator.checkNode ⟨registry, lenient⟩ check' path schema object).findings.violations := by
  rw [Validator.findings_checkNode, Validator.findings_checkNode]
  refine h.append (h.checkFields le below) (h.join_mapIdx _ fun place child => ?_)
  -- Whether a container accepts a child is told by the registry alone.
  exact h.append (h.refl _) (below (path.child place) child)

omit below in
/-- Two checks find related violations when they do so one level below. -/
theorem check_succ {levels levels' : Nat} (lower : ∀ path value,
      R (Validator.check ⟨registry, strict⟩ levels path value).findings.violations
        (Validator.check ⟨registry, lenient⟩ levels' path value).findings.violations)
    (path : Path) (value : Json) :
    R (Validator.check ⟨registry, strict⟩ (levels + 1) path value).findings.violations
      (Validator.check ⟨registry, lenient⟩ (levels' + 1) path value).findings.violations := by
  rw [Validator.check, Validator.check]
  cases value.map? with
  | none => exact h.refl _
  | some object =>
    dsimp only
    have same : Validator.typeOf ⟨registry, lenient⟩ object =
        Validator.typeOf ⟨registry, strict⟩ object := rfl
    rw [same]
    cases Validator.typeOf ⟨registry, strict⟩ object with
    | error found => exact h.refl _
    | ok schema => exact h.checkNode le lower

end Findings.Lenience

/-! ## Documents -/

namespace Validator

variable {registry : Registry} {strict lenient : ValidationSettings}

/-- A check without levels refuses every value. -/
theorem check_zero_ne_nil (validator : Validator) (path : Path) (value : Json) :
    (validator.check 0 path value).findings.violations ≠ [] := by
  rw [check]
  cases value.map? <;> exact List.cons_ne_nil _ _

/-- At the same depth the lenient check drops missing fields only. -/
theorem excused_check (le : strict.AtMost lenient) (depth : lenient.maxDepth = strict.maxDepth)
    (levels : Nat) (path : Path) (value : Json) :
    Violation.Excused (check ⟨registry, strict⟩ levels path value).findings.violations
      (check ⟨registry, lenient⟩ levels path value).findings.violations := by
  induction levels generalizing path value with
  | zero =>
    have same : check ⟨registry, lenient⟩ 0 path value = check ⟨registry, strict⟩ 0 path value := by
      rw [check, check]
      cases value.map? with
      | none => rfl
      | some object => simp only [depth]
    rw [same]
    exact Violation.lenience_excused.refl _
  | succ levels ih => exact Violation.lenience_excused.check_succ le ih path value

/-- A value without violations in the strict check has none in the lenient one. -/
theorem clean_check (le : strict.AtMost lenient) {levels levels' : Nat} (deeper : levels ≤ levels')
    (path : Path) (value : Json)
    (clean : (check ⟨registry, strict⟩ levels path value).findings.violations = []) :
    (check ⟨registry, lenient⟩ levels' path value).findings.violations = [] := by
  induction levels generalizing levels' path value with
  | zero => exact absurd clean (check_zero_ne_nil _ path value)
  | succ levels ih =>
    obtain ⟨levels', rfl⟩ : ∃ n, levels' = n + 1 := ⟨levels' - 1, by omega⟩
    exact Violation.lenience_clean.check_succ le
      (fun path value => ih (Nat.le_of_succ_le_succ deeper) path value) path value clean

/-- The checks of the children of an object without violations find none. -/
theorem clean_child {validator : Validator} {check : Path → Json → Verdict} {path : Path}
    {schema : Schema} {object : KeyMap Json}
    (clean : (validator.checkNode check path schema object).findings.violations = []) {place : Nat}
    {child : Json} (here : (childItems object)[place]? = some child) :
    (check (path.child place) child).findings.violations = [] := by
  rw [findings_checkNode, Findings.violations_append, Findings.violations_join] at clean
  have parts := List.flatMap_eq_nil_iff.1 (List.append_eq_nil_iff.1 clean).2
  have found := parts (validator.checkChild check path schema place child).findings <| by
    refine List.mem_iff_getElem?.2 ⟨place, ?_⟩
    rw [List.getElem?_mapIdx]
    exact congrArg _ here
  exact (List.append_eq_nil_iff.1 found).2

/-- A value without violations has the same node in both checks. -/
theorem node_check_of_clean (le : strict.AtMost lenient) {levels levels' : Nat}
    (deeper : levels ≤ levels') (path : Path) (value : Json)
    (clean : (check ⟨registry, strict⟩ levels path value).findings.violations = []) :
    (check ⟨registry, lenient⟩ levels' path value).node =
      (check ⟨registry, strict⟩ levels path value).node := by
  induction levels generalizing levels' path value with
  | zero => exact absurd clean (check_zero_ne_nil _ path value)
  | succ levels ih =>
    obtain ⟨levels', rfl⟩ : ∃ n, levels' = n + 1 := ⟨levels' - 1, by omega⟩
    have clean' := clean_check le deeper path value clean
    cases read : value.map? with
    | none =>
      rw [check, read] at clean
      cases clean
    | some object =>
      cases known : schemaOf? ⟨registry, strict⟩ object with
      | none =>
        obtain ⟨violation, refused, -⟩ := check_succ_of_unknown levels path read known
        rw [refused] at clean
        cases clean
      | some schema =>
        rw [check_succ read known] at clean ⊢
        have known' : schemaOf? ⟨registry, lenient⟩ object = some schema := known
        rw [check_succ read known'] at clean' ⊢
        rw [node_checkNode, node_checkNode, if_pos clean, if_pos clean']
        have children : ∀ place child child', (childItems object)[place]? = some child →
            (childItems object)[place]? = some child' →
            (check ⟨registry, lenient⟩ levels' (path.child place) child).node =
              (check ⟨registry, strict⟩ levels (path.child place) child').node := by
          intro place child child' here here'
          obtain rfl := Option.some.inj (here.symm.trans here')
          exact ih (Nat.le_of_succ_le_succ deeper) _ child (clean_child clean here)
        rw [mapIdx_congr rfl children]

end Validator

/-! ## The sample -/

namespace Sample

/-- Settings that allow two levels, and no old forms. -/
def cautious : ValidationSettings := { maxDepth := 2, acceptLegacyData := false }

theorem atMost_cautious : cautious.AtMost { maxDepth := 2 } where
  maxDepth := Nat.le_refl _
  compatibilityWindow := UInt32.le_refl _
  acceptLegacyData := nofun

/-- A figure in a box, with its label in its place. -/
def tidyBox : Node := .container { typeName := "Box" } [lateFigure (.string "b")]

/-- A figure with its label in `data`, and with a field that figures do not have. -/
def framedFigure : Node :=
  .empty
    { typeName := "Figure"
      fields := KeyMap.empty.insert "frame" .null
      data := some (KeyMap.empty.insert "label" (.string "b")) }

end Sample

namespace Validator

variable {strict lenient : ValidationSettings}

/-- **Validation is monotone in its settings.** Let settings allow at least as much depth, as wide a
window and as much of old forms as others. A document that the others accept is accepted, as the
same tree. When the depth is the same, the violations of any document are those that the others
find, without some of the missing fields. -/
theorem validate_monotone (registry : Registry) (le : strict.AtMost lenient) (document : Json) :
    (∀ node, (validate ⟨registry, strict⟩ document).result = .ok node →
      (validate ⟨registry, lenient⟩ document).result = .ok node) ∧
    (lenient.maxDepth = strict.maxDepth →
      (violations ⟨registry, lenient⟩ document).Sublist (violations ⟨registry, strict⟩ document) ∧
      (violations ⟨registry, lenient⟩ document).filter (·.kind != .missingField) =
        (violations ⟨registry, strict⟩ document).filter (·.kind != .missingField)) := by
  constructor
  · intro node accepted
    obtain ⟨found, clean⟩ := result_eq_ok_iff.1 accepted
    have same := node_check_of_clean le le.maxDepth .root document clean
    exact result_eq_ok_iff.2 ⟨same.trans found, clean_check le le.maxDepth .root document clean⟩
  · intro depth
    have excused : Violation.Excused (violations ⟨registry, strict⟩ document)
        (violations ⟨registry, lenient⟩ document) := by
      rw [violations_eq, violations_eq, verdict, verdict, depth]
      exact excused_check le depth _ .root document
    exact ⟨excused.sublist, excused.others⟩

/-- The tidy box is accepted by cautious settings, and so by more lenient ones. These do not charge
a figure that has a frame with a missing label. -/
theorem validate_monotone_figures :
    Sample.cautious.AtMost { maxDepth := 2 } ∧
      (validate ⟨Sample.registry, Sample.cautious⟩ Sample.tidyBox.toJson).result =
        .ok Sample.tidyBox ∧
      (validate ⟨Sample.registry, { maxDepth := 2 }⟩ Sample.tidyBox.toJson).result =
        .ok Sample.tidyBox ∧
      (violations ⟨Sample.registry, Sample.cautious⟩ Sample.framedFigure.toJson).map
          Violation.failure = [(.root, .missingField), (.root, .unexpectedField)] ∧
      (violations ⟨Sample.registry, { maxDepth := 2 }⟩ Sample.framedFigure.toJson).Sublist
        (violations ⟨Sample.registry, Sample.cautious⟩ Sample.framedFigure.toJson) ∧
      (violations ⟨Sample.registry, { maxDepth := 2 }⟩ Sample.framedFigure.toJson).map
          Violation.failure = [(.root, .unexpectedField)] := by
  have accepted : (validate ⟨Sample.registry, Sample.cautious⟩ Sample.tidyBox.toJson).result =
      .ok Sample.tidyBox := by rfl
  have tidy := (validate_monotone Sample.registry Sample.atMost_cautious
    Sample.tidyBox.toJson).1 Sample.tidyBox accepted
  have excused := (validate_monotone Sample.registry Sample.atMost_cautious
    Sample.framedFigure.toJson).2 rfl
  exact ⟨Sample.atMost_cautious, accepted, tidy, rfl, excused.1, rfl⟩

end Validator
end DocTree
