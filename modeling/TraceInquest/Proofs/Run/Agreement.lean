import TraceInquest.Proofs.Codebase.FrameOrder
import TraceInquest.Proofs.Run.CodebaseLog
import TraceInquest.Proofs.Run.Effects
import TraceInquest.Proofs.Run.TraceLog
import TraceInquest.Proofs.Settings.Checked

/-! # A run says what it reports

The numbers in the log of a run, its messages on single frames and files, and the sections of its
report are counted in different places. They agree in every run that ends with a report.

* **`events_investigate`**, **`events_summarize`** — what is said on the way to a report.
* **`log_agrees_with_report`** — the log and the report of a run agree. -/

namespace TraceInquest

variable {settings : Settings} {input : Input} {timestamp trace : String} {system : FileSystem}
  {analysis : TraceAnalysis} {codebase : CodebaseAnalysis} {late : Nat → Bool}

/-! ## What is said on the way to a report -/

theorem events_investigate (analyzed :
    analyzeTrace system settings.scope settings.codebasePath trace late = .ok analysis) :
    (investigate settings trace system late).events =
      traceEvents settings.scope analysis late ++ [.parsingDone analysis.frames.length,
        .framesDone analysis.results.length analysis.resolvedCount, .reportDone] := by
  have ended : (analyzeTrace system settings.scope settings.codebasePath trace late).mapError
      Failure.numeral = .ok analysis := except_mapError_eq_ok.mpr analyzed
  unfold investigate
  rw [Told.events_ofResult_bind ended, Told.events_say_bind, Told.events_say_bind,
    Told.events_say_bind]
  rfl

theorem events_summarize
    (analyzed : analyzeCodebase system settings.scope settings.codebasePath = .ok codebase) :
    (summarize settings system).events = .codebaseStarted :: codebase.events := by
  have ended : (analyzeCodebase system settings.scope settings.codebasePath).mapError
      Failure.ofCodebase = .ok codebase := except_mapError_eq_ok.mpr analyzed
  unfold summarize
  rw [Told.events_say_bind, Told.events_ofResult_bind ended, Told.events_say_bind]
  show [Event.codebaseStarted] ++ (codebase.events ++ []) = _
  rw [List.append_nil, List.singleton_append]

theorem events_composeReport_of_told (given : IsTrace settings input system trace)
    (told : ∃ c ∈ trace.toList, Text.isBlank c = false) :
    (composeReport settings input system late).events =
      titleEvents ++ (investigate settings trace system late).events := by
  unfold composeReport
  rw [Told.events_say_bind, Told.events_ofResult_bind (readTrace_eq_ok_iff.mpr given),
    if_neg (not_isBlankText_iff.mpr told)]

theorem events_composeReport_of_blank (given : IsTrace settings input system trace)
    (blank : ∀ c ∈ trace.toList, Text.isBlank c = true) :
    (composeReport settings input system late).events =
      titleEvents ++ .noTrace :: (summarize settings system).events := by
  unfold composeReport
  rw [Told.events_say_bind, Told.events_ofResult_bind (readTrace_eq_ok_iff.mpr given),
    if_pos (isBlankText_iff.mpr blank), Told.events_say_bind, List.singleton_append]

/-! ## Runs -/

/-- The messages of a run. -/
def RunOutcome.log (outcome : RunOutcome) : List String := outcome.events.map (·.message)

/-- In a run that ends with a report and in which frames may take any time, the log and the report
agree: on the frames of the trace if there is one, and otherwise on the sources of the codebase, as
long as no file has a line feed in its name. -/
theorem log_agrees_with_report {sources : SettingSources} {location : Location}
    (late : Nat → Bool) (checked : readSettings sources = .ok settings)
    (unlimited : settings.frameTimeout = none)
    (named : isValidName (timestamp ++ ".investigation.md") = true)
    (ended : (run settings input timestamp system late).result = .ok location) :
    ∃ prepared trace report, prepare settings system = (prepared, none) ∧
      IsTrace settings input prepared trace ∧
      (run settings input timestamp system late).system.readBytes location.text =
        .ok (Text.Utf8.encode report) ∧
      ((∃ c ∈ trace.toList, Text.isBlank c = false) → ∃ analysis,
        analyzeTrace prepared settings.scope settings.codebasePath trace late = .ok analysis ∧
        AgreesOnTrace trace settings.maxFrames analysis
          (run settings input timestamp system late).log report) ∧
      ((∀ c ∈ trace.toList, Text.isBlank c = true) → system.FileNamesAreLines → ∃ codebase,
        analyzeCodebase prepared settings.scope settings.codebasePath = .ok codebase ∧
        AgreesOnCodebase settings.maxFiles codebase.scan.found.length codebase.analyses.length
          (run settings input timestamp system late).log report) := by
  obtain ⟨-, frames_positive, files_positive⟩ := minimums_of_readSettings checked
  rcases run_cases settings input system late named with
    ⟨failure, failed, -⟩ | ⟨prepared, report, ready, isReport, located, writes, said⟩
  · rw [failed] at ended
    cases ended
  · obtain rfl := Except.ok.inj (located.symm.trans ended)
    have saved := writes.readBytes
    have makes := makesOnlyFolders_prepare settings system
    rw [ready] at makes
    cases isReport with
    | onTrace given told analyzed =>
      refine ⟨prepared, _, _, ready, given, saved, fun _ => ⟨_, analyzed, ?_⟩, fun blank => ?_⟩
      · rw [RunOutcome.log, said, events_composeReport_of_told given told,
          events_investigate analyzed]
        exact agreesOnTrace unlimited frames_positive analyzed
      · obtain ⟨c, mem, told⟩ := told
        rw [blank c mem] at told
        cases told
    | onCodebase given blank analyzed reported =>
      refine ⟨prepared, _, _, ready, given, saved, fun told => ?_,
        fun _ names_lines => ⟨_, analyzed, ?_⟩⟩
      · obtain ⟨c, mem, told⟩ := told
        rw [blank c mem] at told
        cases told
      · -- the run made directories only, so its files are those that were there before
        have lines : prepared.FileNamesAreLines := fun names bytes isFile =>
          names_lines names bytes (makes.node?_eq_file_iff.mp isFile)
        rw [RunOutcome.log, said, events_composeReport_of_blank given blank,
          events_summarize analyzed]
        exact agreesOnCodebase files_positive lines analyzed reported

/-! ## Two runs on a codebase of which one source cannot be read -/

/-- A codebase with two sources, the second of which is no text. -/
def halfCodebase : Directory :=
  .file "b.rb" [0xFF] (.file "a.rb" (Text.Utf8.encode functionsText) .empty)

/-- The file system with that codebase in a directory of the working directory. -/
def halfSystem : FileSystem where
  root := .folder "repo" halfCodebase .empty
  working := []

/-- Settings of runs whose reports go into the working directory. -/
def halfSettings : Settings where
  codebasePath := "repo"
  artifactsDir := "."

/-- What becomes of the two frames of a trace in it. -/
def halfAnalysis : TraceAnalysis where
  frames := [{ filename := "a.rb", line := 1 }, { filename := "b.rb", line := 2 }]
  results :=
    [{ frame := { filename := "a.rb", line := 1 }
       outcome := .resolved "repo/a.rb"
        { path := "repo/a.rb"
          targetLine := 1
          lines := [⟨1, "def a", .target⟩, ⟨2, "def b", .after⟩, ⟨3, "def c", .after⟩,
            ⟨4, "def d", .after⟩]
          containingFunction := "a" } },
     { frame := { filename := "b.rb", line := 2 }, outcome := .notFound }]

theorem analyzeTrace_halfSystem :
    analyzeTrace halfSystem {} "repo" "a.rb:1\nb.rb:2" = .ok halfAnalysis := by
  have parsed : parseTrace TraceRule.all "a.rb:1\nb.rb:2" = .ok halfAnalysis.frames := by
    decide +kernel
  have results : analyzeFrames halfSystem {} "repo" (fun _ => false)
      (takeUpTo ({} : Scope).maxFrames halfAnalysis.frames) = halfAnalysis.results := by
    decide +kernel
  exact analyzeTrace_eq_ok_iff.mpr ⟨_, parsed, by rw [results]⟩

theorem readSettings_halfSettings :
    readSettings { direct := [("codebase_path", .text "repo"), ("artifacts_dir", .text ".")] } =
      .ok halfSettings := rfl

theorem prepare_halfSystem : prepare halfSettings halfSystem = (halfSystem, none) := by
  have found : halfSystem.get (Location.ofPath halfSettings.codebasePath).text =
      .ok (.folder halfCodebase) := by
    decide +kernel
  have made : halfSystem.makeFolders (Location.ofPath halfSettings.artifactsDir) =
      { system := halfSystem } := rfl
  unfold prepare
  dsimp only
  rw [found, made]
  rfl

theorem overwrites_halfSystem :
    FileSystem.Overwrites pairSystem halfSystem ["repo", "b.rb"] [0xFF] := by
  have isFile : pairSystem.node? ["repo", "b.rb"] =
      some (.file (Text.Utf8.encode importsText)) := by
    decide +kernel
  exact FileSystem.overwrites_place isFile [0xFF]

/-- Whatever is reported on it, the file of the report can be opened. -/
theorem exists_writeFile_halfSystem : ∃ opened, halfSystem.writeFile
    (reportLocation halfSettings "2024-01-31_23-59-59") [] = .ok opened := by
  have opens : (halfSystem.writeFile
      (reportLocation halfSettings "2024-01-31_23-59-59") []).isOk = true := by
    decide +kernel
  cases opening : halfSystem.writeFile (reportLocation halfSettings "2024-01-31_23-59-59") [] with
  | error fault =>
    rw [opening] at opens
    cases opens
  | ok opened => exact ⟨opened, rfl⟩

theorem reportLocation_halfSettings : reportLocation halfSettings "2024-01-31_23-59-59" =
    ⟨"", ["2024-01-31_23-59-59.investigation.md"]⟩ := by
  decide

/-- A run without a trace on that codebase. -/
theorem exists_run_halfSystem :
    ∃ codebase, analyzeCodebase halfSystem {} "repo" = .ok codebase ∧
      codebase.scan.found.length = 2 ∧ codebase.analyses.length = 1 ∧
      (run halfSettings none "2024-01-31_23-59-59" halfSystem).result =
        .ok ⟨"", ["2024-01-31_23-59-59.investigation.md"]⟩ := by
  have isFolder : pairSystem.entries? "repo" = some pairCodebase := by decide +kernel
  have scanned := (scan_overwrites overwrites_halfSystem isFolder).trans scan_pairSystem
  have loaded := (loadIgnoreContext_overwrites overwrites_halfSystem (by decide)).trans
    loadIgnoreContext_pairSystem
  have analyzed := analyzeCodebase_eq_ok loaded scanned (hasNul_of_mem_files scanned)
  have reported := reportCodebase_codebaseOf halfSystem.working (by decide) scanned
  obtain ⟨opened, opening⟩ := exists_writeFile_halfSystem
  refine ⟨_, analyzed, rfl, ?_, ?_⟩
  · rw [analyses_codebaseOf_eq_map, List.length_map]
    decide +kernel
  · rw [← reportLocation_halfSettings]
    exact result_run_of_opened (by decide) prepare_halfSystem
      (.onCodebase (.ofTerminal rfl rfl) (by simp) analyzed reported) opening

theorem log_agrees_with_report_halfSystem :
    readSettings { direct := [("codebase_path", .text "repo"), ("artifacts_dir", .text ".")] } =
        .ok halfSettings ∧ halfSettings.frameTimeout = none ∧
      isValidName ("2024-01-31_23-59-59" ++ ".investigation.md") = true ∧
      (∃ report,
        (run halfSettings (some (Text.Utf8.encode "a.rb:1\nb.rb:2")) "2024-01-31_23-59-59"
          halfSystem).system.readBytes "2024-01-31_23-59-59.investigation.md" =
            .ok (Text.Utf8.encode report) ∧
        AgreesOnTrace "a.rb:1\nb.rb:2" 5 halfAnalysis
          (run halfSettings (some (Text.Utf8.encode "a.rb:1\nb.rb:2")) "2024-01-31_23-59-59"
            halfSystem).log report) ∧
      halfAnalysis.resolvedCount = 1 ∧ halfAnalysis.results.map frameMessage =
        ["[Investigation] a.rb:1 -> resolved", "[Investigation] b.rb:2 -> not_found"] ∧
      ∃ report,
        (run halfSettings none "2024-01-31_23-59-59" halfSystem).system.readBytes
          "2024-01-31_23-59-59.investigation.md" = .ok (Text.Utf8.encode report) ∧
        AgreesOnCodebase 50 2 1
          (run halfSettings none "2024-01-31_23-59-59" halfSystem).log report := by
  have named : isValidName ("2024-01-31_23-59-59" ++ ".investigation.md") = true := by decide
  have text : (Location.mk "" ["2024-01-31_23-59-59.investigation.md"]).text =
      "2024-01-31_23-59-59.investigation.md" := by decide
  refine ⟨readSettings_halfSettings, rfl, named, ?_, by decide, by decide, ?_⟩
  · have read : readTrace halfSettings (some (Text.Utf8.encode "a.rb:1\nb.rb:2")) halfSystem =
        .ok "a.rb:1\nb.rb:2" := by
      decide +kernel
    have read_given := readTrace_eq_ok_iff.mp read
    obtain ⟨opened, opening⟩ := exists_writeFile_halfSystem
    have ended := result_run_of_opened named prepare_halfSystem
      (.onTrace read_given ⟨'a', by decide, by decide⟩ analyzeTrace_halfSystem) opening
    rw [reportLocation_halfSettings] at ended
    obtain ⟨prepared, trace, report, ready, given, saved, on_trace, -⟩ :=
      log_agrees_with_report (fun _ => false) readSettings_halfSettings rfl named ended
    obtain rfl := (Prod.mk.inj (prepare_halfSystem.symm.trans ready)).1
    obtain rfl := read_given.unique given
    obtain ⟨analysis, analyzed, agrees⟩ := on_trace ⟨'a', by decide, by decide⟩
    obtain rfl := Except.ok.inj (analyzeTrace_halfSystem.symm.trans analyzed)
    exact ⟨report, by rwa [text] at saved, agrees⟩
  · obtain ⟨codebase, analyzed, found, analyses, ended⟩ := exists_run_halfSystem
    obtain ⟨prepared, trace, report, ready, given, saved, -, on_codebase⟩ :=
      log_agrees_with_report (fun _ => false) readSettings_halfSettings rfl named ended
    obtain rfl := (Prod.mk.inj (prepare_halfSystem.symm.trans ready)).1
    obtain rfl := IsTrace.unique (.ofTerminal rfl rfl) given
    have names_lines : halfSystem.NamesAreLines := by decide +kernel
    obtain ⟨codebase', analyzed', agrees⟩ := on_codebase (by simp) names_lines.fileNames
    obtain rfl := Except.ok.inj (analyzed.symm.trans analyzed')
    rw [found, analyses] at agrees
    exact ⟨report, by rwa [text] at saved, agrees⟩

end TraceInquest
