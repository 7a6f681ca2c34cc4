import DocTree.CommandLine.MappingText
import DocTree.Proofs.Decode.Records
import DocTree.Proofs.Text.Parts
import Mathlib.Data.List.Forall2

/-!
# Mappings as texts

A text is a mapping when it has a piece, and each of its pieces names a key and a field around its
first mark of equality. The last piece of a key decides, and the first piece that names none of them
says what is wrong. So a mapping is read back from its pairs with commas between them.

## Main definitions

* `Mapping.Divides` — the pieces of a text.
* `Mapping.Cut`, `Mapping.Complete`, `Mapping.Names` — a piece cut at its first mark, a piece with
  something on either side of it, and what it names there.
* `Mapping.LastNamed`, `Mapping.FirstOffence` — the field of the last piece of a key, and the error
  of the first piece that is not complete.
* `Mapping.Writable`, `Mapping.written` — the keys and fields that can be written, and pairs as they
  are written.

## Main statements

* `Mapping.divides_iff` — the pieces of a text are those that it is read by.
* `Mapping.parsePair_eq_ok_iff`, `Mapping.parsePair_eq_error_iff` — what a piece is read as.
* `Mapping.parse_written` — a mapping is read back from its pairs.
* `Mapping.parse_exact` — which texts are mappings, of what, and what is wrong with the others.
-/

namespace DocTree
namespace Mapping

open Text

variable {text piece before after : List Char} {found : List (List Char)} {key field : String}
  {error : MappingTextError} {mapping : Mapping} {pairs : List (String × String)}

/-! ## Pieces -/

/-- The pieces of a text: parts without commas make up the text with commas between them, and the
pieces are what is left of these parts without the white space at their ends, if there is anything
left. -/
def Divides (text : List Char) (found : List (List Char)) : Prop :=
  ∃ parts cores, Splits ',' text parts ∧ List.Forall₂ Trims parts cores ∧
    found = cores.filter (· ≠ [])

theorem divides_iff : Divides text found ↔ pieces text = found := by
  have cores : ∀ parts cores, List.Forall₂ Trims parts cores ↔ parts.map trim = cores := by
    intro parts cores
    have trims : Trims = fun text core => trim text = core :=
      funext₂ fun _ _ => propext trims_iff
    rw [trims, ← List.forall₂_map_left_iff (R := (· = ·)), List.forall₂_eq_eq_eq]
  have kept : ∀ cores : List (List Char),
      cores.filter (· ≠ []) = cores.filter (!·.isEmpty) := fun cores =>
    List.filter_congr fun core _ => by cases core <;> rfl
  unfold Divides pieces
  simp only [cores, splits_iff, kept]
  constructor
  · rintro ⟨_, _, rfl, rfl, rfl⟩
    rfl
  · rintro rfl
    exact ⟨_, _, rfl, rfl, rfl⟩

/-! ## One piece -/

/-- A piece is cut at its first mark of equality. -/
structure Cut (piece before after : List Char) : Prop where
  whole : piece = before ++ '=' :: after
  first : '=' ∉ before

/-- A piece has something before and after its first mark of equality. -/
def Complete (piece : List Char) : Prop :=
  ∃ before after, Cut piece before after ∧ ¬Blank before ∧ ¬Blank after

/-- What stands before and after the first mark of equality of a piece, without the white space at
the ends. -/
def Names (piece : List Char) (key field : String) : Prop :=
  ∃ before after, Cut piece before after ∧ Trims before key.toList ∧ Trims after field.toList

/-- What is wrong with a piece: it has no mark of equality, or nothing on one side of the first. -/
inductive Offends (piece : List Char) : MappingTextError → Prop
  | noMark : '=' ∉ piece → Offends piece (.noMark (String.ofList piece))
  | emptyName {before after : List Char} : Cut piece before after → Blank before ∨ Blank after →
      Offends piece (.emptyName (String.ofList piece))

theorem Cut.unmarked (cut : Cut piece before after) : ∀ c ∈ before, decide (c ≠ '=') = true :=
  fun _ mem => decide_eq_true fun same => cut.first (same ▸ mem)

theorem Cut.takeWhile_eq (cut : Cut piece before after) : piece.takeWhile (· ≠ '=') = before := by
  rw [cut.whole, List.takeWhile_append_of_pos cut.unmarked]
  simp

theorem Cut.dropWhile_eq (cut : Cut piece before after) :
    piece.dropWhile (· ≠ '=') = '=' :: after := by
  rw [cut.whole, List.dropWhile_append_of_pos cut.unmarked]
  simp

/-- A piece is cut in one way only. -/
theorem Cut.unique {before' after' : List Char} (cut : Cut piece before after)
    (cut' : Cut piece before' after') : before = before' ∧ after = after' :=
  ⟨cut.takeWhile_eq.symm.trans cut'.takeWhile_eq,
    (List.cons.inj (cut.dropWhile_eq.symm.trans cut'.dropWhile_eq)).2⟩

theorem exists_cut (marked : '=' ∈ piece) : ∃ before after, Cut piece before after := by
  obtain ⟨before, after, whole, first⟩ := List.eq_append_cons_of_mem marked
  exact ⟨before, after, whole, first⟩

/-- Something is wrong with a piece, or it is complete. -/
theorem complete_or_offends (piece : List Char) :
    (∃ error, Offends piece error) ∨ Complete piece := by
  by_cases marked : '=' ∈ piece
  · obtain ⟨before, after, cut⟩ := exists_cut marked
    by_cases blank : Blank before ∨ Blank after
    · exact .inl ⟨_, .emptyName cut blank⟩
    · exact .inr ⟨before, after, cut, not_or.1 blank⟩
  · exact .inl ⟨_, .noMark marked⟩

theorem parsePair_of_offends (offends : Offends piece error) : parsePair piece = .error error := by
  cases offends with
  | noMark unmarked =>
    have nothing : piece.dropWhile (· ≠ '=') = [] :=
      List.dropWhile_eq_nil_iff.2 fun c mem => decide_eq_true fun same => unmarked (same ▸ mem)
    rw [parsePair, nothing]
  | emptyName cut blank =>
    rw [← trim_eq_nil_iff, ← trim_eq_nil_iff, ← List.isEmpty_iff, ← List.isEmpty_iff,
      ← Bool.or_eq_true] at blank
    rw [parsePair, cut.dropWhile_eq]
    simp only [cut.takeWhile_eq, if_pos blank]

theorem parsePair_of_complete (cut : Cut piece before after) (named : ¬Blank before)
    (given : ¬Blank after) :
    parsePair piece = .ok (String.ofList (trim before), String.ofList (trim after)) := by
  have neither : ¬((trim before).isEmpty || (trim after).isEmpty) = true := by
    rw [Bool.or_eq_true, List.isEmpty_iff, List.isEmpty_iff, trim_eq_nil_iff, trim_eq_nil_iff]
    exact not_or.2 ⟨named, given⟩
  rw [parsePair, cut.dropWhile_eq]
  simp only [cut.takeWhile_eq, if_neg neither]

/-- A complete piece is read as what it names. -/
theorem parsePair_eq_ok_iff :
    parsePair piece = .ok (key, field) ↔ Complete piece ∧ Names piece key field := by
  constructor
  · intro read
    obtain ⟨error, offends⟩ | ⟨before, after, cut, named, given⟩ := complete_or_offends piece
    · rw [parsePair_of_offends offends] at read
      cases read
    · rw [parsePair_of_complete cut named given] at read
      cases read
      exact ⟨⟨before, after, cut, named, given⟩, before, after, cut,
        trims_iff.2 String.toList_ofList.symm, trims_iff.2 String.toList_ofList.symm⟩
  · rintro ⟨⟨before, after, cut, named, given⟩, before', after', cut', keyed, valued⟩
    obtain ⟨rfl, rfl⟩ := cut.unique cut'
    rw [parsePair_of_complete cut named given, trims_iff.1 keyed, trims_iff.1 valued,
      String.ofList_toList, String.ofList_toList]

/-- A piece that is not complete is refused for what is wrong with it. -/
theorem parsePair_eq_error_iff : parsePair piece = .error error ↔ Offends piece error := by
  refine ⟨fun refused => ?_, parsePair_of_offends⟩
  obtain ⟨error', offends⟩ | ⟨before, after, cut, named, given⟩ := complete_or_offends piece
  · rw [parsePair_of_offends offends] at refused
    cases refused
    exact offends
  · rw [parsePair_of_complete cut named given] at refused
    cases refused

theorem exists_parsePair_eq_ok_iff :
    (∃ pair, parsePair piece = .ok pair) ↔ Complete piece := by
  constructor
  · rintro ⟨⟨key, field⟩, read⟩
    exact (parsePair_eq_ok_iff.1 read).1
  · rintro ⟨before, after, cut, named, given⟩
    exact ⟨_, parsePair_of_complete cut named given⟩

/-! ## Whole texts -/

/-- The field that the last piece of a key names. -/
def LastNamed (found : List (List Char)) (key field : String) : Prop :=
  ∃ earlier piece later, found = earlier ++ piece :: later ∧ Names piece key field ∧
    ∀ other ∈ later, ∀ field, ¬Names other key field

/-- What is wrong with the first piece that is not complete. -/
def FirstOffence (found : List (List Char)) (error : MappingTextError) : Prop :=
  ∃ earlier piece later, found = earlier ++ piece :: later ∧ (∀ other ∈ earlier, Complete other) ∧
    Offends piece error

/-- A text is a mapping when it has a piece and all its pieces can be read. -/
theorem parse_eq_ok_iff {text : String} :
    parse text = .ok mapping ↔ ∃ pairs, (pieces text.toList).mapM parsePair = .ok pairs ∧
      pairs ≠ [] ∧ mapping = .ofPairs pairs := by
  rw [parse, Except.bind_eq_ok_iff]
  refine exists_congr fun pairs => and_congr_right fun _ => ?_
  cases pairs <;> simp [pure, Except.pure, eq_comm]

theorem eq_nil_iff_of_mapM (read : found.mapM parsePair = .ok pairs) : found = [] ↔ pairs = [] := by
  have each := Except.mapM_eq_ok_iff.1 read
  constructor
  · rintro rfl
    exact List.map_eq_nil_iff.1 each.symm
  · rintro rfl
    exact List.map_eq_nil_iff.1 each

/-- A text is a mapping of something when it has a piece and all its pieces are complete. -/
theorem exists_parse_eq_ok_iff {text : String} :
    (∃ mapping, parse text = .ok mapping) ↔
      pieces text.toList ≠ [] ∧ ∀ piece ∈ pieces text.toList, Complete piece := by
  have complete : (∀ piece ∈ pieces text.toList, Complete piece) ↔
      ∃ pairs, (pieces text.toList).mapM parsePair = .ok pairs := by
    rw [Except.exists_mapM_eq_ok_iff]
    simp only [exists_parsePair_eq_ok_iff]
  simp only [complete, parse_eq_ok_iff]
  constructor
  · rintro ⟨_, pairs, read, given, -⟩
    exact ⟨mt (eq_nil_iff_of_mapM read).1 given, pairs, read⟩
  · rintro ⟨given, pairs, read⟩
    exact ⟨_, pairs, read, mt (eq_nil_iff_of_mapM read).2 given, rfl⟩

/-- The map of the pairs that pieces are read as gives a key the field of its last piece. -/
theorem get?_ofPairs_iff (read : found.mapM parsePair = .ok pairs) :
    (ofPairs pairs).get? key = some field ↔ LastNamed found key field := by
  have names : ∀ piece ∈ found, ∀ key field,
      Names piece key field ↔ parsePair piece = .ok (key, field) := by
    intro piece mem key field
    have done := Except.exists_mapM_eq_ok_iff.1 ⟨pairs, read⟩ piece mem
    rw [parsePair_eq_ok_iff, and_iff_right (exists_parsePair_eq_ok_iff.1 done)]
  have each := Except.mapM_eq_ok_iff.1 read
  refine KeyMap.get?_ofList_eq_some_iff.trans ⟨?_, ?_⟩
  -- A division of the pairs around one of them is one of the pieces around its own, and conversely.
  · rintro ⟨before, after, rfl, apart⟩
    rw [List.map_append, List.map_cons] at each
    obtain ⟨earlier, rest, rfl, -, split⟩ := List.map_eq_append_iff.1 each
    obtain ⟨piece, later, rfl, here, behind⟩ := List.map_eq_cons_iff.1 split
    refine ⟨earlier, piece, later, rfl, (names piece (by simp) _ _).2 here, ?_⟩
    intro other mem field' named
    have there : parsePair other ∈ after.map .ok := behind ▸ List.mem_map_of_mem mem
    obtain ⟨pair, listed, same⟩ := List.mem_map.1 there
    rw [(names other (by simp [mem]) _ _).1 named] at same
    cases same
    exact apart _ listed rfl
  · rintro ⟨earlier, piece, later, rfl, named, last⟩
    rw [List.map_append, List.map_cons] at each
    obtain ⟨before, rest, rfl, -, split⟩ := List.map_eq_append_iff.1 each.symm
    obtain ⟨pair, after, rfl, here, behind⟩ := List.map_eq_cons_iff.1 split
    obtain rfl : pair = (key, field) :=
      Except.ok.inj (here.trans ((names piece (by simp) _ _).1 named))
    refine ⟨before, after, rfl, ?_⟩
    rintro ⟨key', field'⟩ listed rfl
    have there : .ok (key', field') ∈ later.map parsePair := behind ▸ List.mem_map_of_mem listed
    obtain ⟨other, mem, read'⟩ := List.mem_map.1 there
    exact last other mem field' ((names other (by simp [mem]) _ _).2 read')

/-- A text is refused when it has no piece, or for its first piece that is not complete. -/
theorem parse_eq_error_iff {text : String} :
    parse text = .error error ↔ pieces text.toList = [] ∧ error = .noPairs ∨
      FirstOffence (pieces text.toList) error := by
  have offence : FirstOffence (pieces text.toList) error ↔
      (pieces text.toList).mapM parsePair = .error error := by
    rw [Except.mapM_eq_error_iff]
    simp only [exists_parsePair_eq_ok_iff, parsePair_eq_error_iff]
    rfl
  rw [offence, parse]
  cases read : (pieces text.toList).mapM parsePair with
  | error error' =>
    have given : pieces text.toList ≠ [] := fun empty => by
      rw [empty] at read
      cases read
    simp [bind, Except.bind, given]
  | ok pairs =>
    rw [eq_nil_iff_of_mapM read]
    cases pairs <;> simp [bind, Except.bind, pure, Except.pure, eq_comm]

/-! ## Written mappings -/

/-- A key and a field that can be written: neither is empty, begins or ends with white space, or has
a comma, and the key has no mark of equality. -/
structure Writable (key field : String) : Prop where
  key_nonempty : key ≠ ""
  key_trimmed : Trimmed key.toList
  key_undivided : ',' ∉ key.toList
  key_unmarked : '=' ∉ key.toList
  field_nonempty : field ≠ ""
  field_trimmed : Trimmed field.toList
  field_undivided : ',' ∉ field.toList

/-- A pair as it is written. -/
def writtenPair (pair : String × String) : String := pair.1 ++ "=" ++ pair.2

/-- Pairs as they are written, with commas between them. -/
def written (pairs : List (String × String)) : String :=
  ",".intercalate (pairs.map writtenPair)

theorem toList_writtenPair (pair : String × String) :
    (writtenPair pair).toList = pair.1.toList ++ '=' :: pair.2.toList := by
  simp [writtenPair]

theorem Writable.cut {pair : String × String} (writable : Writable pair.1 pair.2) :
    Cut (writtenPair pair).toList pair.1.toList pair.2.toList :=
  ⟨toList_writtenPair pair, writable.key_unmarked⟩

theorem Writable.trimmed {pair : String × String} (writable : Writable pair.1 pair.2) :
    Trimmed (writtenPair pair).toList := by
  have key : pair.1.toList ≠ [] := by simpa using writable.key_nonempty
  have field : pair.2.toList ≠ [] := by simpa using writable.field_nonempty
  rw [toList_writtenPair]
  constructor
  · rw [List.head?_append_of_ne_nil _ key]
    exact writable.key_trimmed.head
  · rw [List.getLast?_append_of_ne_nil _ (by simp), List.getLast?_cons_of_ne_nil field]
    exact writable.field_trimmed.last

/-- A written pair is read back. -/
theorem Writable.parsePair_writtenPair {pair : String × String}
    (writable : Writable pair.1 pair.2) :
    parsePair (writtenPair pair).toList = .ok pair := by
  have named : trim pair.1.toList = pair.1.toList := writable.key_trimmed.trim_eq
  have given : trim pair.2.toList = pair.2.toList := writable.field_trimmed.trim_eq
  have key : ¬Blank pair.1.toList := by
    rw [← trim_eq_nil_iff, named]
    simpa using writable.key_nonempty
  have field : ¬Blank pair.2.toList := by
    rw [← trim_eq_nil_iff, given]
    simpa using writable.field_nonempty
  rw [parsePair_of_complete writable.cut key field, named, given, String.ofList_toList,
    String.ofList_toList]

/-- The pieces of written pairs are these pairs. -/
theorem pieces_written (given : pairs ≠ []) (writable : ∀ pair ∈ pairs, Writable pair.1 pair.2) :
    pieces (written pairs).toList = pairs.map fun pair => (writtenPair pair).toList := by
  have parts : splitAt ',' (written pairs).toList =
      pairs.map fun pair => (writtenPair pair).toList := by
    refine splits_iff.1 ⟨by simpa using given, ?_, ?_⟩
    · intro part mem
      obtain ⟨pair, listed, rfl⟩ := List.mem_map.1 mem
      have fine := writable pair listed
      rw [toList_writtenPair]
      simp [fine.key_undivided, fine.field_undivided]
    · rw [written, String.toList_intercalate, List.map_map]
      rfl
  have trimmed : (pairs.map fun pair => (writtenPair pair).toList).map trim =
      pairs.map fun pair => (writtenPair pair).toList := by
    rw [List.map_map]
    exact List.map_congr_left fun pair mem => (writable pair mem).trimmed.trim_eq
  rw [pieces, parts, trimmed]
  refine List.filter_eq_self.2 fun piece mem => ?_
  obtain ⟨pair, listed, rfl⟩ := List.mem_map.1 mem
  simp [toList_writtenPair]

/-- A mapping is read back from its pairs, in any order. -/
theorem parse_written (given : mapping.pairs ≠ [])
    (writable : ∀ pair ∈ mapping.pairs, Writable pair.1 pair.2) (perm : pairs.Perm mapping.pairs) :
    parse (written pairs) = .ok mapping := by
  have listed : pairs ≠ [] := fun empty => given (List.nil_perm.1 (empty ▸ perm))
  have fine : ∀ pair ∈ pairs, Writable pair.1 pair.2 := fun pair mem =>
    writable pair (perm.mem_iff.1 mem)
  refine parse_eq_ok_iff.2 ⟨pairs, ?_, listed, ?_⟩
  · rw [pieces_written listed fine]
    exact Except.mapM_map_eq_ok fun pair mem => (fine pair mem).parsePair_writtenPair
  · exact congrArg Mapping.mk (KeyMap.ofList_of_perm perm).symm

/-- **Mappings are read by their grammar.** Every text has its pieces, and it is a mapping exactly
when it has one and all of them are complete. A key is then mapped to the field that its last piece
names. Any other text is refused for its first piece that is not complete, or because it has none.
In particular, a mapping is read back from its pairs with commas between them. -/
theorem parse_exact :
    (∀ text : String, (∃ found, Divides text.toList found) ∧
      ∀ found, Divides text.toList found →
        ((∃ mapping, parse text = .ok mapping) ↔
          found ≠ [] ∧ ∀ piece ∈ found, Complete piece) ∧
        (∀ mapping, parse text = .ok mapping →
          ∀ key field, mapping.get? key = some field ↔ LastNamed found key field) ∧
        ∀ error, parse text = .error error ↔
          found = [] ∧ error = .noPairs ∨ FirstOffence found error) ∧
    ∀ mapping : Mapping, mapping.pairs ≠ [] →
      (∀ pair ∈ mapping.pairs, Writable pair.1 pair.2) →
      ∀ pairs, pairs.Perm mapping.pairs → parse (written pairs) = .ok mapping := by
  refine ⟨fun text => ⟨⟨_, divides_iff.2 rfl⟩, fun found divides => ?_⟩,
    fun mapping given writable pairs perm => parse_written given writable perm⟩
  obtain rfl := divides_iff.1 divides
  refine ⟨exists_parse_eq_ok_iff, fun mapping ok key field => ?_, fun error => parse_eq_error_iff⟩
  obtain ⟨pairs, read, -, rfl⟩ := parse_eq_ok_iff.1 ok
  exact get?_ofPairs_iff read

end Mapping

/-- Two keys with their fields, one of which has a mark of equality in it. -/
def Sample.sources : Mapping := .ofPairs [("alt", "alt"), ("src", "a=b")]

namespace Mapping

/-- The sample is read from a text with blanks, with an empty piece and with a key that is given
twice, and from its pairs in the other order. A text with a piece that has no mark of equality is
refused for it. -/
theorem parse_exact_sources :
    (∃ mapping, parse " src = a=b ,, alt=x,alt =alt" = .ok mapping ∧
      mapping.get? "alt" = some "alt" ∧ mapping.get? "src" = some "a=b") ∧
    parse "alt=alt,src, =x" = .error (.noMark "src") ∧
    Sample.sources.pairs ≠ [] ∧ (∀ pair ∈ Sample.sources.pairs, Writable pair.1 pair.2) ∧
    [("src", "a=b"), ("alt", "alt")].Perm Sample.sources.pairs ∧
    parse "src=a=b,alt=alt" = .ok Sample.sources := by
  obtain ⟨texts, mappings⟩ := parse_exact
  have pairs : Sample.sources.pairs = [("alt", "alt"), ("src", "a=b")] := rfl
  have writable : ∀ pair ∈ Sample.sources.pairs, Writable pair.1 pair.2 := by
    rw [pairs]
    refine List.forall_mem_cons.2 ⟨?_, List.forall_mem_singleton.2 ?_⟩
    all_goals constructor <;> decide
  have perm : [("src", "a=b"), ("alt", "alt")].Perm Sample.sources.pairs := .swap _ _ _
  have text : written [("src", "a=b"), ("alt", "alt")] = "src=a=b,alt=alt" := by decide
  have given : Sample.sources.pairs ≠ [] := by simp [pairs]
  refine ⟨?_, ?_, given, writable, perm, text ▸ mappings Sample.sources given writable _ perm⟩
  · have divides : Divides " src = a=b ,, alt=x,alt =alt".toList
        ["src = a=b".toList, "alt=x".toList, "alt =alt".toList] := divides_iff.2 (by decide)
    have each : ["src = a=b".toList, "alt=x".toList, "alt =alt".toList].mapM parsePair =
        .ok [("src", "a=b"), ("alt", "x"), ("alt", "alt")] := rfl
    obtain ⟨readable, fields, -⟩ := (texts _).2 _ divides
    obtain ⟨mapping, read⟩ := readable.2 ⟨by simp, fun piece mem =>
      exists_parsePair_eq_ok_iff.1 (Except.exists_mapM_eq_ok_iff.1 ⟨_, each⟩ piece mem)⟩
    exact ⟨mapping, read, (fields mapping read _ _).2 ((get?_ofPairs_iff each).1 rfl),
      (fields mapping read _ _).2 ((get?_ofPairs_iff each).1 rfl)⟩
  · have divides : Divides "alt=alt,src, =x".toList
        ["alt=alt".toList, "src".toList, "=x".toList] := divides_iff.2 (by decide)
    refine (((texts _).2 _ divides).2.2 _).2
      (.inr ⟨["alt=alt".toList], "src".toList, ["=x".toList], rfl, ?_, .noMark (by decide)⟩)
    exact List.forall_mem_singleton.2 (exists_parsePair_eq_ok_iff.1 ⟨("alt", "alt"), rfl⟩)

end Mapping
end DocTree
