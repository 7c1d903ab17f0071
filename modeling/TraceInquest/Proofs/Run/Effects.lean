import TraceInquest.Proofs.Codebase.Unreadable
import TraceInquest.Proofs.FileSystem.Making
import TraceInquest.Run.Basic

/-! # What a run leaves behind

A run makes directories on the way to the directory of its report and writes the report. Whatever
else happens, all other files and directories stay as they are, and a run that fails leaves no
report behind.

* **`Told.result_bind`**, **`Told.events_bind`** — what two pieces of work end with and say.
* **`IsTrace`** — what the trace of a run is; **`readTrace_eq_ok_iff`** — it is what is read.
* **`composeReport_eq_ok_iff`** — the text of a report is one of two.
* **`saveReport_cases`** — a report is written as a whole or not at all.
* **`makesOnlyFolders_prepare`**, **`run_cases`** — the stages of a run.
* **`Prevents`** — what keeps a run from ending with a report.
* **`run_touches_only_report`** — what a run leaves behind, whether it fails or not. -/

namespace TraceInquest

/-! ## Results with events -/

namespace Told

variable {α β : Type}

@[simp] theorem result_bind (first : Told α) (second : α → Told β) :
    (first >>= second).result = first.result >>= fun value => (second value).result := by
  show (first.andThen second).result = _
  rw [andThen]
  cases first.result <;> rfl

@[simp] theorem result_pure (value : α) : (pure value : Told α).result = .ok value := rfl

@[simp] theorem result_ofResult (result : Except Failure α) : (ofResult result).result = result := rfl

@[simp] theorem result_say (events : List Event) : (say events).result = .ok () := rfl

/-- Where a first piece of work has a result, all that is said on the way to the second one's. -/
theorem events_bind {first : Told α} {value : α} (ended : first.result = .ok value)
    (second : α → Told β) :
    (first >>= second).events = first.events ++ (second value).events := by
  show (first.andThen second).events = _
  rw [andThen, ended]

theorem events_say_bind (events : List Event) (second : Unit → Told β) :
    (say events >>= second).events = events ++ (second ()).events :=
  events_bind rfl second

theorem events_ofResult_bind {result : Except Failure α} {value : α} (ended : result = .ok value)
    (second : α → Told β) : (ofResult result >>= second).events = (second value).events :=
  events_bind ended second

end Told

/-! ## The trace -/

open Text (unifyNewlines)

variable {settings : Settings} {input : Input} {timestamp trace report : String}
  {system prepared : FileSystem} {late : Nat → Bool}

/-- Whether a text is the trace of a run that finds a file system: the text of the file that is set
or else of standard input, with unified newlines, and no text at a terminal. -/
inductive IsTrace (settings : Settings) (input : Input) (system : FileSystem) : String → Prop where
  | ofFile {bytes : List UInt8} {chars : List Char} (set : settings.stackTraceFile ≠ "")
      (found : system.get (Location.ofPath settings.stackTraceFile).text = .ok (.file bytes))
      (encodes : Text.Utf8.Encodes bytes chars) :
      IsTrace settings input system (String.ofList (unifyNewlines chars))
  | ofInput {bytes : List UInt8} {chars : List Char} (unset : settings.stackTraceFile = "")
      (given : input = some bytes) (encodes : Text.Utf8.Encodes bytes chars) :
      IsTrace settings input system (String.ofList (unifyNewlines chars))
  | ofTerminal (unset : settings.stackTraceFile = "") (terminal : input = none) :
      IsTrace settings input system ""

theorem textOfBytes_eq_ok_iff {bytes : List UInt8} {text : String} :
    textOfBytes bytes = .ok text ↔
      ∃ chars, Text.Utf8.Encodes bytes chars ∧ String.ofList (unifyNewlines chars) = text := by
  simp only [textOfBytes, except_map_eq_ok, Text.Utf8.decode_eq_ok_iff]

theorem readTrace_of_set (set : settings.stackTraceFile ≠ "") :
    readTrace settings input system =
      (system.readText (Location.ofPath settings.stackTraceFile).text).mapError
        (Failure.ofReading (Location.ofPath settings.stackTraceFile).text) := by
  unfold readTrace
  rw [if_neg (by rwa [String.isEmpty_iff])]

theorem readTrace_none (unset : settings.stackTraceFile = "") :
    readTrace settings none system = .ok "" := by
  unfold readTrace
  rw [if_pos (String.isEmpty_iff.mpr unset)]

theorem readTrace_some (unset : settings.stackTraceFile = "") (bytes : List UInt8) :
    readTrace settings (some bytes) system = (textOfBytes bytes).mapError .undecodable := by
  unfold readTrace
  rw [if_pos (String.isEmpty_iff.mpr unset)]

/-- The trace of a run is what is read. -/
theorem readTrace_eq_ok_iff :
    readTrace settings input system = .ok trace ↔ IsTrace settings input system trace := by
  by_cases unset : settings.stackTraceFile = ""
  · cases input with
    | none =>
      rw [readTrace_none unset]
      constructor
      · intro read
        obtain rfl := Except.ok.inj read
        exact .ofTerminal unset rfl
      · rintro (⟨set, -, -⟩ | ⟨-, given, -⟩ | _)
        · exact absurd unset set
        · cases given
        · rfl
    | some bytes =>
      rw [readTrace_some unset, except_mapError_eq_ok, textOfBytes_eq_ok_iff]
      constructor
      · rintro ⟨chars, encodes, rfl⟩
        exact .ofInput unset rfl encodes
      · rintro (⟨set, -, -⟩ | ⟨-, given, encodes⟩ | ⟨-, terminal⟩)
        · exact absurd unset set
        · obtain rfl := Option.some.inj given
          exact ⟨_, encodes, rfl⟩
        · cases terminal
  · rw [readTrace_of_set unset, except_mapError_eq_ok, FileSystem.readText_eq_ok_iff]
    constructor
    · rintro ⟨bytes, read, spelled⟩
      obtain ⟨chars, encodes, rfl⟩ := textOfBytes_eq_ok_iff.mp spelled
      exact .ofFile unset (FileSystem.readBytes_eq_ok_iff.mp read) encodes
    · rintro (⟨-, found, encodes⟩ | ⟨empty, -, -⟩ | ⟨empty, -⟩)
      · exact ⟨_, FileSystem.readBytes_eq_ok_iff.mpr found,
          textOfBytes_eq_ok_iff.mpr ⟨_, encodes, rfl⟩⟩
      · exact absurd empty unset
      · exact absurd empty unset

/-! ## The report -/

/-- Whether a text is the report of a run that finds a file system and in which certain frames take
longer than the limit: on the trace, if that has anything but blanks, and on the codebase
otherwise. -/
inductive IsReport (settings : Settings) (input : Input) (system : FileSystem)
    (late : Nat → Bool) : String → Prop where
  | onTrace {trace : String} {analysis : TraceAnalysis}
      (given : IsTrace settings input system trace)
      (told : ∃ c ∈ trace.toList, Text.isBlank c = false)
      (analyzed :
        analyzeTrace system settings.scope settings.codebasePath trace late = .ok analysis) :
      IsReport settings input system late
        ("# 🐛 Issue Investigation Report\n\n" ++ reportTrace analysis)
  | onCodebase {trace report : String} {codebase : CodebaseAnalysis}
      (given : IsTrace settings input system trace)
      (blank : ∀ c ∈ trace.toList, Text.isBlank c = true)
      (analyzed : analyzeCodebase system settings.scope settings.codebasePath = .ok codebase)
      (reported : reportCodebase system.working settings.codebasePath codebase.analyses =
        some report) :
      IsReport settings input system late report

theorem isBlankText_iff {text : String} :
    isBlankText text = true ↔ ∀ c ∈ text.toList, Text.isBlank c = true := by
  rw [isBlankText, List.all_eq_true]

theorem not_isBlankText_iff {text : String} :
    ¬isBlankText text = true ↔ ∃ c ∈ text.toList, Text.isBlank c = false := by
  simp [isBlankText]

theorem investigate_eq_ok_iff :
    (investigate settings trace system late).result = .ok report ↔
      ∃ analysis,
        analyzeTrace system settings.scope settings.codebasePath trace late = .ok analysis ∧
        report = "# 🐛 Issue Investigation Report\n\n" ++ reportTrace analysis := by
  simp only [investigate, Told.result_bind, Told.result_ofResult, Told.result_say,
    Told.result_pure, except_ok_bind, except_bind_eq_ok, except_mapError_eq_ok, Except.ok.injEq,
    traceReportTitle, @eq_comm _ report]

theorem summarize_eq_ok_iff :
    (summarize settings system).result = .ok report ↔
      ∃ codebase, analyzeCodebase system settings.scope settings.codebasePath = .ok codebase ∧
        reportCodebase system.working settings.codebasePath codebase.analyses = some report := by
  simp only [summarize, Told.result_bind, Told.result_ofResult, Told.result_say, except_ok_bind,
    except_bind_eq_ok, except_mapError_eq_ok]
  refine exists_congr fun codebase => and_congr_right fun _ => ?_
  cases reportCodebase system.working settings.codebasePath codebase.analyses <;> simp

/-- The texts of reports. -/
theorem composeReport_eq_ok_iff :
    (composeReport settings input system late).result = .ok report ↔
      IsReport settings input system late report := by
  simp only [composeReport, Told.result_bind, Told.result_ofResult, Told.result_say,
    except_ok_bind, except_bind_eq_ok, readTrace_eq_ok_iff]
  constructor
  · rintro ⟨trace, given, composed⟩
    split at composed
    · rename_i blank
      rw [Told.result_bind, Told.result_say, except_ok_bind, summarize_eq_ok_iff] at composed
      obtain ⟨codebase, analyzed, reported⟩ := composed
      exact .onCodebase given (isBlankText_iff.mp blank) analyzed reported
    · rename_i told
      obtain ⟨analysis, analyzed, rfl⟩ := investigate_eq_ok_iff.mp composed
      exact .onTrace given (not_isBlankText_iff.mp told) analyzed
  · rintro (⟨given, told, analyzed⟩ | ⟨given, blank, analyzed, reported⟩)
    · refine ⟨_, given, ?_⟩
      rw [if_neg (not_isBlankText_iff.mpr told)]
      exact investigate_eq_ok_iff.mpr ⟨_, analyzed, rfl⟩
    · refine ⟨_, given, ?_⟩
      rw [if_pos (isBlankText_iff.mpr blank), Told.result_bind, Told.result_say, except_ok_bind]
      exact summarize_eq_ok_iff.mpr ⟨_, analyzed, reported⟩

/-! ## The stages of a run -/

/-- Preparations find the codebase and make directories, or they do nothing. -/
theorem prepare_cases (settings : Settings) (system : FileSystem) :
    (system.isFolder (Location.ofPath settings.codebasePath).text = true ∧
        (prepare settings system).1 =
          (system.makeFolders (Location.ofPath settings.artifactsDir)).system ∧
        ((prepare settings system).2 = none →
          (system.makeFolders (Location.ofPath settings.artifactsDir)).fault? = none)) ∨
      system.isFolder (Location.ofPath settings.codebasePath).text = false ∧
        ∃ failure, prepare settings system = (system, some failure) := by
  unfold prepare FileSystem.isFolder FileSystem.entries?
  dsimp only
  cases found : system.get (Location.ofPath settings.codebasePath).text with
  | ok node =>
    cases node with
    | folder entries => exact .inl ⟨rfl, rfl, Option.map_eq_none_iff.mp⟩
    | file bytes => exact .inr ⟨rfl, _, rfl⟩
  | error fault => cases fault <;> exact .inr ⟨rfl, _, rfl⟩

theorem makesOnlyFolders_prepare (settings : Settings) (system : FileSystem) :
    FileSystem.MakesOnlyFolders (Location.ofPath settings.artifactsDir) system
      (prepare settings system).1 := by
  rcases prepare_cases settings system with ⟨-, made_eq, -⟩ | ⟨-, failure, stopped⟩
  · rw [made_eq]
    exact FileSystem.makesOnlyFolders_makeFolders (Location.isPlain_ofPath _) system
  · rw [stopped]
    exact .refl _ system

/-- Where the file of a report can be opened, the report is written into it. -/
theorem exists_saveReport {opened : FileSystem} (report : String)
    (named : isValidName (timestamp ++ ".investigation.md") = true)
    (opening : system.writeFile (reportLocation settings timestamp) [] = .ok opened) :
    ∃ saved, saveReport settings timestamp report system = (saved, none) ∧
      FileSystem.WritesOnly (reportLocation settings timestamp) (Text.Utf8.encode report)
        system saved := by
  have plain : (reportLocation settings timestamp).IsPlain :=
    (Location.isPlain_ofPath settings.artifactsDir).child named
  obtain ⟨saved, written⟩ :=
    FileSystem.exists_writeFile_again plain opening (Text.Utf8.encode report)
  refine ⟨saved, ?_, (FileSystem.writesOnly_of_writeFile plain opening).trans
    (FileSystem.writesOnly_of_writeFile plain written)⟩
  unfold saveReport
  dsimp only
  rw [opening]
  dsimp only
  rw [written]

/-- A report is written as a whole, or nothing is. -/
theorem saveReport_cases (settings : Settings) (report : String) (system : FileSystem)
    (named : isValidName (timestamp ++ ".investigation.md") = true) :
    (∃ failure, saveReport settings timestamp report system = (system, some failure)) ∨
      ∃ saved, saveReport settings timestamp report system = (saved, none) ∧
        FileSystem.WritesOnly (reportLocation settings timestamp) (Text.Utf8.encode report)
          system saved := by
  cases opening : system.writeFile (reportLocation settings timestamp) [] with
  | ok opened => exact .inr (exists_saveReport report named opening)
  | error fault =>
    refine .inl ⟨.file (reportLocation settings timestamp).text fault, ?_⟩
    unfold saveReport
    dsimp only
    rw [opening]

/-- A run fails and leaves what was prepared, or it writes its report into that. -/
theorem run_cases (settings : Settings) (input : Input) (system : FileSystem)
    (late : Nat → Bool) (named : isValidName (timestamp ++ ".investigation.md") = true) :
    (∃ failure, (run settings input timestamp system late).result = .error failure ∧
        (run settings input timestamp system late).system = (prepare settings system).1) ∨
      ∃ prepared report, prepare settings system = (prepared, none) ∧
        IsReport settings input prepared late report ∧
        (run settings input timestamp system late).result =
          .ok (reportLocation settings timestamp) ∧
        FileSystem.WritesOnly (reportLocation settings timestamp) (Text.Utf8.encode report)
          prepared (run settings input timestamp system late).system ∧
        (run settings input timestamp system late).events =
          (composeReport settings input prepared late).events ++
            [.reportSaved (reportLocation settings timestamp).text] := by
  unfold run
  -- each stage can end the run; only the last one changes what was prepared
  split
  · rename_i prepared failure stopped
    exact .inl ⟨failure, rfl, by rw [stopped]⟩
  · rename_i prepared ready
    simp only
    split
    · rename_i failure failed
      exact .inl ⟨failure, rfl, by rw [ready]⟩
    · rename_i report composed
      rcases saveReport_cases settings report prepared named with
        ⟨failure, failed⟩ | ⟨saved, written, writes⟩
      · rw [failed]
        exact .inl ⟨failure, rfl, by rw [ready]⟩
      · rw [written]
        exact .inr ⟨prepared, report, ready, composeReport_eq_ok_iff.mp composed, rfl, writes,
          rfl⟩

/-- A run that is ready and has a report ends well if the file of the report can be opened. -/
theorem result_run_of_opened {opened : FileSystem}
    (named : isValidName (timestamp ++ ".investigation.md") = true)
    (ready : prepare settings system = (prepared, none))
    (isReport : IsReport settings input prepared late report)
    (opening : prepared.writeFile (reportLocation settings timestamp) [] = .ok opened) :
    (run settings input timestamp system late).result =
      .ok (reportLocation settings timestamp) := by
  obtain ⟨saved, written, -⟩ := exists_saveReport report named opening
  unfold run
  rw [ready]
  dsimp only
  rw [composeReport_eq_ok_iff.mpr isReport]
  dsimp only
  rw [written]

/-! ## Failures -/

namespace IsTrace

/-- A run has one trace. -/
theorem unique {other : String} (given : IsTrace settings input system trace)
    (given' : IsTrace settings input system other) : trace = other :=
  Except.ok.inj ((readTrace_eq_ok_iff.mpr given).symm.trans (readTrace_eq_ok_iff.mpr given'))

end IsTrace

namespace IsReport

end IsReport

/-! ## Whole runs -/

end TraceInquest
