import DocTree.CommandLine.Run
import DocTree.Proofs.Engine.Entrances
import DocTree.Proofs.Text.Parts

/-!
# Checking files

Checking files reports on each of them by itself, and ends well exactly when all of them can be read
and their texts are taken in.

## Main statements

* `FileReport.ofFile_congr` — the report on a file is about its own text.
* `FileReport.isClean_ofFile_iff` — which files are found to be valid documents.
* `toList_writeReports`, `splitAt_writeReports` — reports are written line by line, and read back.
* `toList_output_check` — what checking files as text writes.
* `status_check_eq_zero_iff` — when checking files ends well.
* `entrances_agree` — the entrances of an engine come to the same, and so does checking files.
-/

namespace DocTree
namespace CommandLine

variable {engine : Engine} {files other : Files} {name : String}

/-! ## One file -/

namespace FileReport

/-- The report on a file is about its own text: it is the same wherever this text stands under the
name. -/
theorem ofFile_congr (same : other name = files name) :
    FileReport.ofFile engine other name = FileReport.ofFile engine files name := by
  rw [ofFile, ofFile, readFile, readFile, same]

theorem ofFile_of_text (engine : Engine) {text : String} (read : files name = .ok text) :
    (∀ violations, (engine.checkText text).result = .ok violations →
      FileReport.ofFile engine files name = ⟨name, none, violations⟩) ∧
    ∀ error, (engine.checkText text).result = .error error →
      FileReport.ofFile engine files name = ⟨name, some (Failure.ofEngine error).line, []⟩ := by
  unfold ofFile readFile
  rw [read]
  constructor <;> intro _ outcome
  all_goals simp [bind, Except.bind, Except.mapError, outcome]

/-- The files that are found to be valid documents are those that can be read and whose texts are
taken in. -/
theorem isClean_ofFile_iff :
    (FileReport.ofFile engine files name).isClean = true ↔
      ∃ text tree, files name = .ok text ∧ (engine.parse text).result = .ok tree := by
  cases read : files name with
  | error reason =>
    have unread : FileReport.ofFile engine files name =
        ⟨name, some (Failure.line ⟨"Failed to read " ++ name, [reason.message]⟩), []⟩ := by
      unfold ofFile readFile
      rw [read]
      rfl
    simp [unread, isClean]
  | ok text =>
    obtain ⟨listed, refused⟩ := ofFile_of_text engine read
    obtain ⟨tree, parsed, checked⟩ | ⟨violations, found, parsed, checked⟩ |
      ⟨reason, parsed, checked⟩ := engine.entrance_cases text
    · simp [listed _ checked, isClean, parsed]
    · simp [listed _ checked, isClean, parsed, found]
    · simp [refused _ checked, isClean, parsed]

end FileReport

/-! ## Reports as texts -/

/-- The text of reports has the lines of each of them in turn, and a line break after each line. -/
theorem toList_writeReports (reports : List FileReport) :
    (writeReports reports .text).toList =
      reports.flatMap fun report => report.lines.flatMap fun line => line.toList ++ ['\n'] := by
  simp [writeReports, String.toList_join, List.flatMap_map, List.flatMap_assoc]

/-- Lines that have no line break in them are read back from the text, in the same order. -/
theorem splitAt_writeReports {reports : List FileReport}
    (unbroken : ∀ report ∈ reports, ∀ line ∈ report.lines, '\n' ∉ line.toList) :
    Text.splitAt '\n' (writeReports reports .text).toList =
      (reports.flatMap fun report => report.lines.map String.toList) ++ [[]] := by
  refine Text.splits_iff.1 ⟨by simp, ?_, ?_⟩
  · intro part mem
    rcases List.mem_append.1 mem with listed | last
    · obtain ⟨report, asked, mem⟩ := List.mem_flatMap.1 listed
      obtain ⟨line, written, rfl⟩ := List.mem_map.1 mem
      exact unbroken report asked line written
    · obtain rfl := List.mem_singleton.1 last
      exact List.not_mem_nil
  · rw [Text.intercalate_concat_nil, toList_writeReports, List.flatMap_assoc]
    simp only [List.flatMap_map]

/-! ## Whole commands -/

variable {arguments : List String} {request : Request} {names : List String}
  {format : ReportFormat}

/-- Checking files needs the engine of the request, and is checking the files with it. -/
theorem runArguments_check (asked : Request.parse arguments = .ok request)
    (check : request.command = .check names format) (files : Files) :
    (∀ failure, request.engine files = .error failure →
      runArguments arguments files = { status := 1, errors := failure.text }) ∧
    ∀ engine, request.engine files = .ok engine →
      runArguments arguments files = checkFiles engine files names format := by
  unfold runArguments Request.run
  constructor <;> intro _ outcome
  all_goals simp [asked, check, outcome, bind, Except.bind, pure, Except.pure]

/-- Checking files as text writes the lines of the report on each file, in the order of the
files. -/
theorem toList_output_check (asked : Request.parse arguments = .ok request)
    (check : request.command = .check names .text) (ready : request.engine files = .ok engine) :
    (runArguments arguments files).output.toList = names.flatMap fun name =>
      (FileReport.ofFile engine files name).lines.flatMap fun line => line.toList ++ ['\n'] := by
  rw [(runArguments_check asked check files).2 engine ready, checkFiles, toList_writeReports,
    List.flatMap_map]

theorem status_checkFiles_eq_zero_iff :
    (checkFiles engine files names format).status = 0 ↔
      ∀ name ∈ names, (FileReport.ofFile engine files name).isClean = true := by
  simp [checkFiles]

/-- Checking files ends well when the engine can be set up, and every file can be read and its text
is taken in. -/
theorem status_check_eq_zero_iff (asked : Request.parse arguments = .ok request)
    (check : request.command = .check names format) :
    (runArguments arguments files).status = 0 ↔
      ∃ engine, request.engine files = .ok engine ∧ ∀ name ∈ names, ∃ text tree,
        files name = .ok text ∧ (engine.parse text).result = .ok tree := by
  obtain ⟨failed, ready⟩ := runArguments_check asked check files
  cases outcome : request.engine files with
  | error failure => simp [failed failure outcome]
  | ok engine =>
    simp [ready engine outcome, status_checkFiles_eq_zero_iff, FileReport.isClean_ofFile_iff]

/-- **All entrances give the same verdict, and checking files gives it of each file.** Reading a
text, checking it and reading its value come to the same, for every engine and text. So checking
files ends with status zero, in either format, when the engine can be set up and every file can be
read and its text is taken in. One report is written for each file in turn, and it depends on the
text of that file alone. -/
theorem entrances_agree :
    (∀ (engine : Engine) (text : String), engine.AgreesOn text) ∧
    ∀ (arguments : List String) (request : Request) (names : List String) (format : ReportFormat)
      (files : Files), Request.parse arguments = .ok request →
      request.command = .check names format →
      ((runArguments arguments files).status = 0 ↔
        ∃ engine, request.engine files = .ok engine ∧ ∀ name ∈ names, ∃ text tree,
          files name = .ok text ∧ (engine.parse text).result = .ok tree) ∧
      ∀ engine, request.engine files = .ok engine →
        (runArguments arguments files).output =
          writeReports (names.map (FileReport.ofFile engine files)) format ∧
        ∀ name ∈ names, ∀ other : Files, other name = files name →
          FileReport.ofFile engine other name = FileReport.ofFile engine files name := by
  refine ⟨Engine.agreesOn, fun arguments request names format files asked check =>
    ⟨status_check_eq_zero_iff asked check, fun engine ready => ⟨?_, ?_⟩⟩⟩
  · rw [(runArguments_check asked check files).2 engine ready]
    rfl
  · exact fun name _ other same => FileReport.ofFile_congr same

/-- The text of a document. -/
def Sample.text : String := "\x7b\"type\":\"ThematicBreak\"\x7d"

/-- One file, with this text. -/
def Sample.oneFile : Files := fun name => if name = "break" then .ok Sample.text else .error .absent

/-- The file is valid by itself; together with a file that is not there, checking does not end
well. -/
theorem entrances_agree_oneFile :
    Request.parse ["check", "break"] = .ok ⟨.check ["break"] .text, none, none⟩ ∧
      Request.parse ["check", "--format=json", "break", "lost"] =
        .ok ⟨.check ["break", "lost"] .json, none, none⟩ ∧
      (Engine.checkText ⟨.reference, {}⟩ Sample.text).result = .ok [] ∧
      (runArguments ["check", "break"] Sample.oneFile).status = 0 ∧
      (runArguments ["check", "--format=json", "break", "lost"] Sample.oneFile).status ≠ 0 := by
  have alone : Request.parse ["check", "break"] = .ok ⟨.check ["break"] .text, none, none⟩ := rfl
  have both : Request.parse ["check", "--format=json", "break", "lost"] =
      .ok ⟨.check ["break", "lost"] .json, none, none⟩ := rfl
  have ready : Request.engine ⟨.check ["break"] .text, none, none⟩ Sample.oneFile =
      .ok ⟨.reference, {}⟩ := rfl
  have parsed : (Engine.parse ⟨.reference, {}⟩ Sample.text).result =
      .ok (.empty { typeName := "ThematicBreak" }) := rfl
  obtain ⟨texts, checks⟩ := entrances_agree
  refine ⟨alone, both, (texts _ _).accepted.2 ⟨_, parsed⟩,
    (checks _ _ _ _ Sample.oneFile alone rfl).1.2 ⟨_, ready, ?_⟩, ?_⟩
  · intro name mem
    obtain rfl := List.mem_singleton.1 mem
    exact ⟨_, _, rfl, parsed⟩
  · intro well
    obtain ⟨_, -, readable⟩ := (checks _ _ _ _ Sample.oneFile both rfl).1.1 well
    obtain ⟨_, _, read, -⟩ := readable "lost" (by simp)
    cases read

end CommandLine
end DocTree
