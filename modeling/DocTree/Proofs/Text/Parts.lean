import DocTree.Text.Whitespace
import Mathlib.Data.List.TakeWhile
import Mathlib.Tactic.MkIffOfInductiveProp

/-!
# Parts of texts

A text is divided at a mark in one way only, and there is one thing left of it when the white space
at its ends is taken away. So both are described without saying how they are found.

## Main definitions

* `Text.Splits` — parts without a mark make up a text when the mark is put between them.
* `Text.Blank`, `Text.Trimmed` — only white space, and no white space at the ends.
* `Text.Trims` — what is left of a text without the white space at its ends.

## Main statements

* `Text.splits_iff` — the parts are those that dividing the text gives.
* `Text.trims_iff` — what is left is what trimming the text gives.
* `Text.trim_eq_nil_iff` — nothing is left of blank texts only.
-/

namespace DocTree.Text

variable {mark : Char} {text core : List Char} {parts : List (List Char)}

/-! ## Parts between marks -/

/-- Parts without a mark make up a text when the mark is put between them. -/
structure Splits (mark : Char) (text : List Char) (parts : List (List Char)) : Prop where
  nonempty : parts ≠ []
  apart : ∀ part ∈ parts, mark ∉ part
  joined : [mark].intercalate parts = text

theorem splitAt_eq_splitOn (mark : Char) (text : List Char) :
    splitAt mark text = text.splitOn mark := by
  induction text with
  | nil => rfl
  | cons c rest ih =>
    rw [splitAt, List.splitOn_cons_eq_if_modifyHead, ih]
    by_cases here : c = mark
    · simp [here]
    · cases divided : rest.splitOn mark with
      | nil => exact absurd divided (List.splitOn_ne_nil mark rest)
      | cons part parts => simp [here]

theorem notMem_of_mem_splitAt {part : List Char} (mem : part ∈ splitAt mark text) :
    mark ∉ part := by
  induction text generalizing part with
  | nil => simp_all [splitAt]
  | cons c rest ih =>
    rw [splitAt] at mem
    split at mem
    · rcases List.mem_cons.1 mem with rfl | later
      · exact List.not_mem_nil
      · exact ih later
    · rename_i other
      split at mem
      · obtain rfl := List.mem_singleton.1 mem
        simpa using Ne.symm other
      · rename_i first parts divided
        rw [divided] at ih
        rcases List.mem_cons.1 mem with rfl | later
        · simpa [Ne.symm other] using ih List.mem_cons_self
        · exact ih (List.mem_cons_of_mem _ later)

theorem splits_splitAt (mark : Char) (text : List Char) : Splits mark text (splitAt mark text) where
  nonempty := splitAt_eq_splitOn mark text ▸ List.splitOn_ne_nil mark text
  apart _ := notMem_of_mem_splitAt
  joined := splitAt_eq_splitOn mark text ▸ List.intercalate_splitOn mark

/-- A text is divided at a mark in one way only. -/
theorem splits_iff : Splits mark text parts ↔ splitAt mark text = parts := by
  constructor
  · rintro ⟨nonempty, apart, rfl⟩
    rw [splitAt_eq_splitOn, List.splitOn_intercalate mark apart nonempty]
  · rintro rfl
    exact splits_splitAt mark text

/-- After the first part, the mark stands before each part. -/
theorem intercalate_cons (mark : Char) (part : List Char) (parts : List (List Char)) :
    [mark].intercalate (part :: parts) = part ++ parts.flatMap (mark :: ·) := by
  induction parts generalizing part with
  | nil => simp
  | cons next parts ih => simp [List.intercalate_cons_cons, ih]

/-- The mark stands behind each part when the last one is empty. -/
theorem intercalate_concat_nil (mark : Char) (parts : List (List Char)) :
    [mark].intercalate (parts ++ [[]]) = parts.flatMap (· ++ [mark]) := by
  induction parts with
  | nil => rfl
  | cons part parts ih =>
    rw [List.flatMap_cons, ← ih, List.cons_append, intercalate_cons]
    cases parts <;> simp [intercalate_cons]

/-! ## White space at the ends -/

/-- A text is only white space. -/
def Blank (text : List Char) : Prop := ∀ c ∈ text, isWhitespace c = true

/-- A text neither begins nor ends with white space. -/
@[mk_iff] structure Trimmed (text : List Char) : Prop where
  head : ∀ c ∈ text.head?, isWhitespace c = false
  last : ∀ c ∈ text.getLast?, isWhitespace c = false

instance (text : List Char) : Decidable (Trimmed text) :=
  decidable_of_iff
    (text.head?.any isWhitespace = false ∧ text.getLast?.any isWhitespace = false) <| by
      simp only [trimmed_iff, Option.any_eq_false, Option.mem_def]

/-- What is left of a text without the white space at its ends. -/
def Trims (text core : List Char) : Prop :=
  Trimmed core ∧ ∃ before after, Blank before ∧ Blank after ∧ text = before ++ core ++ after

theorem dropWhile_of_head? (h : ∀ c ∈ text.head?, isWhitespace c = false) :
    text.dropWhile isWhitespace = text := by
  cases text with
  | nil => rfl
  | cons c rest => exact List.dropWhile_cons_of_neg (by simp [h c rfl])

theorem head?_dropWhile {c : Char} (h : c ∈ (text.dropWhile isWhitespace).head?) :
    isWhitespace c = false := by
  have first := List.head?_dropWhile_not isWhitespace text
  rwa [Option.mem_def.1 h] at first

theorem Trims.eq (trims : Trims text core) : trim text = core := by
  obtain ⟨trimmed, before, after, blank, blank', rfl⟩ := trims
  rw [trim, List.append_assoc, List.dropWhile_append_of_pos blank]
  cases core with
  | nil =>
    have nothing : after.dropWhile isWhitespace = [] := List.dropWhile_eq_nil_iff.2 blank'
    rw [List.nil_append, nothing]
    rfl
  | cons c rest =>
    have blankBack : ∀ c ∈ after.reverse, isWhitespace c = true :=
      fun c mem => blank' c (List.mem_reverse.1 mem)
    have front : (c :: rest ++ after).dropWhile isWhitespace = c :: rest ++ after :=
      dropWhile_of_head? trimmed.head
    have back : (c :: rest).reverse.dropWhile isWhitespace = (c :: rest).reverse :=
      dropWhile_of_head? (List.head?_reverse ▸ trimmed.last)
    rw [front, List.reverse_append, List.dropWhile_append_of_pos blankBack, back,
      List.reverse_reverse]

theorem trims_trim (text : List Char) : Trims text (trim text) := by
  have front := List.takeWhile_append_dropWhile (p := isWhitespace) (l := text)
  generalize rest : text.dropWhile isWhitespace = back at front
  have ends := List.takeWhile_append_dropWhile (p := isWhitespace) (l := back.reverse)
  have kept : back = trim text ++ (back.reverse.takeWhile isWhitespace).reverse := by
    rw [trim, rest, ← List.reverse_append, ends, List.reverse_reverse]
  refine ⟨⟨fun c first => ?_, fun c last => ?_⟩, text.takeWhile isWhitespace,
    (back.reverse.takeWhile isWhitespace).reverse, fun c => List.mem_takeWhile_imp,
    fun c mem => List.mem_takeWhile_imp (List.mem_reverse.1 mem), ?_⟩
  · have front : c ∈ (text.dropWhile isWhitespace).head? := by
      rw [rest, kept]
      simp [Option.mem_def.1 first]
    exact head?_dropWhile front
  · rw [trim, List.getLast?_reverse] at last
    exact head?_dropWhile last
  · rw [List.append_assoc, ← kept, front]

/-- There is one thing left of a text without the white space at its ends. -/
theorem trims_iff : Trims text core ↔ trim text = core :=
  ⟨Trims.eq, fun h => h ▸ trims_trim text⟩

theorem Trimmed.trim_eq (trimmed : Trimmed text) : trim text = text :=
  Trims.eq ⟨trimmed, [], [], by simp [Blank], by simp [Blank], by simp⟩

/-- Nothing is left of blank texts only. -/
theorem trim_eq_nil_iff : trim text = [] ↔ Blank text := by
  rw [← trims_iff]
  constructor
  · rintro ⟨-, before, after, blank, blank', rfl⟩ c mem
    rw [List.append_nil] at mem
    exact (List.mem_append.1 mem).elim (blank c) (blank' c)
  · intro blank
    exact ⟨by decide, text, [], blank, by simp [Blank], by simp⟩

end DocTree.Text
