import TraceInquest.Proofs.Codebase.Analysis
import TraceInquest.Proofs.Report.Lines
import TraceInquest.Proofs.Text.Ends

/-! # The report shows the lines of the source

In the report on a trace exactly the fences start as fences and exactly the targets start with an
arrow, whatever the sources and the names in the trace are, and behind each arrow stands the line
of the file to which the frame was resolved.

* **`filter_arrow_traceReportLines`**, **`countP_fence_traceReportLines`** — the arrows and the
  fences among the lines of a report.
* **`ShowsSource`** — a line shows the line of the file that a frame names.
* **`reportTrace_shows_source`** — so do the arrows of the report, one for each resolved frame. -/

namespace TraceInquest

/-! ## How lines start -/

/-- What stands in front of the target line of a window. -/
def arrow : String := "→ "

section Starts

variable {mark : String} {c : Char}

/-- The entry of a frame starts with a number. -/
theorem not_startsWith_of_mem_entryLines {number : Nat} {frame : Frame}
    (starts : mark.toList.head? = some c) (no_digit : c.isDigit = false) (no_blank : c ≠ ' ') :
    ∀ line ∈ entryLines number frame, line.startsWith mark = false := by
  rw [entryLines, List.forall_mem_cons, List.forall_mem_singleton]
  constructor
  · refine Text.startsWith_eq_false starts ?_
    simp only [String.append_assoc, String.toList_append]
    rw [List.head?_append]
    cases digits : (toString number).toList with
    | nil => exact absurd (String.toList_eq_nil_iff.mp digits) Nat.repr_ne_empty
    | cons d rest =>
      have d_digit : d ≠ c := by
        rintro rfl
        refine Text.not_mem_toString_nat no_digit number ?_
        rw [digits]
        exact List.mem_cons_self
      simpa using d_digit
  · simp only [String.append_assoc]
    exact Text.startsWith_append_eq_false starts rfl no_blank

/-- A line of a window starts with an arrow or with blanks. -/
theorem not_startsWith_windowLine (line : RelevantLine) (starts : mark.toList.head? = some c)
    (differs : c ∉ ['→', ' ']) : (windowLine line).startsWith mark = false := by
  simp only [List.mem_cons, List.not_mem_nil, or_false, not_or] at differs
  obtain ⟨no_arrow, no_blank⟩ := differs
  rw [windowLine, String.append_assoc, String.append_assoc, lineMarker]
  split
  · exact Text.startsWith_append_eq_false starts rfl no_arrow
  · exact Text.startsWith_append_eq_false starts rfl no_blank

theorem not_startsWith_of_mem_functionLines {window : ContextWindow}
    (starts : mark.toList.head? = some c) (differs : c ≠ '🔧') :
    ∀ line ∈ functionLines window, line.startsWith mark = false := by
  rw [functionLines]
  split
  · simp
  · rw [List.forall_mem_singleton, String.append_assoc]
    exact Text.startsWith_append_eq_false starts rfl differs

/-- Outside the rows of a window only its fences can start with a mark. -/
theorem filter_startsWith_sectionLines (result : FrameAnalysis)
    (starts : mark.toList.head? = some c) (differs : c ∉ ['❓', '⚠', '#', '🔧']) :
    (sectionLines result).filter (·.startsWith mark) =
      match result.outcome.window? with
      | some window =>
        ((codeFence ++ detectLanguage result.frame.filename) ::
          (window.lines.map windowLine ++ [codeFence])).filter (·.startsWith mark)
      | none => [] := by
  simp only [List.mem_cons, List.not_mem_nil, or_false, not_or] at differs
  obtain ⟨not_found, no_context, heading, function⟩ := differs
  obtain ⟨frame, outcome⟩ := result
  cases outcome with
  | notFound =>
    have line (text : String) : ("❓ **File not found:** `" ++ text).startsWith mark = false :=
      Text.startsWith_append_eq_false starts rfl not_found
    simp only [sectionLines, FrameOutcome.window?, String.append_assoc, List.filter_cons, line,
      Bool.false_eq_true, if_false, List.filter_nil]
  | noContext path =>
    have line (text : String) : ("⚠️ **No context available:** `" ++ text).startsWith mark = false :=
      Text.startsWith_append_eq_false starts rfl no_context
    simp only [sectionLines, FrameOutcome.window?, String.append_assoc, List.filter_cons, line,
      Bool.false_eq_true, if_false, List.filter_nil]
  | resolved path window =>
    -- the heading, the empty line and the line of the function cannot start with the mark
    have line (text : String) : ("### 📄 `" ++ text).startsWith mark = false :=
      Text.startsWith_append_eq_false starts rfl heading
    have blank : "".startsWith mark = false := Text.startsWith_eq_false starts (by simp)
    have behind : (functionLines window).filter (·.startsWith mark) = [] := by
      rw [List.filter_eq_nil_iff]
      intro text mem
      rw [not_startsWith_of_mem_functionLines starts function text mem]
      exact Bool.false_ne_true
    simp only [sectionLines, FrameOutcome.window?, String.append_assoc, List.cons_append,
      List.nil_append, List.filter_cons, List.filter_append, line, blank, behind,
      Bool.false_eq_true, if_false, List.filter_nil]

end Starts

theorem windowLine_not_startsWith_codeFence (line : RelevantLine) :
    (windowLine line).startsWith codeFence = false :=
  not_startsWith_windowLine (c := '`') line rfl (by decide)

/-- The arrow stands in front of the target and of no other line of a window. -/
theorem windowLine_startsWith_arrow_iff (line : RelevantLine) :
    (windowLine line).startsWith arrow = decide (line.role = .target) := by
  rw [windowLine, String.append_assoc, String.append_assoc, lineMarker]
  split
  · rename_i target
    rw [decide_eq_true target]
    exact Text.startsWith_append _ _
  · rename_i other
    rw [decide_eq_false other]
    exact Text.startsWith_append_eq_false (c := '→') rfl rfl (by decide)

/-! ## Arrows and fences in a section -/

/-- Whether a frame was found in a file. -/
def FrameAnalysis.isResolved (result : FrameAnalysis) : Bool := result.outcome.status == "resolved"

theorem isResolved_eq (result : FrameAnalysis) :
    result.isResolved = result.outcome.window?.isSome := by
  rw [FrameAnalysis.isResolved]
  cases result.outcome with
  | notFound => exact beq_eq_false_iff_ne.mpr (by decide)
  | noContext path => exact beq_eq_false_iff_ne.mpr (by rw [FrameOutcome.status]; decide)
  | resolved path window => exact beq_self_eq_true _

/-- The lines of the targets of a section. -/
def targetLines (result : FrameAnalysis) : List String :=
  match result.outcome.window? with
  | some window => (window.lines.filter (·.role = .target)).map windowLine
  | none => []

/-- The lines of a section that start with an arrow are those of its targets. -/
theorem filter_arrow_sectionLines (result : FrameAnalysis) :
    (sectionLines result).filter (·.startsWith arrow) = targetLines result := by
  have fence (language : String) : (codeFence ++ language).startsWith arrow = false :=
    Text.startsWith_append_eq_false (c := '→') rfl rfl (by decide)
  have rows (lines : List RelevantLine) : (lines.map windowLine).filter (·.startsWith arrow) =
      (lines.filter (·.role = .target)).map windowLine := by
    rw [List.filter_map]
    congr 1
    refine List.filter_congr fun line _ => ?_
    rw [Function.comp, windowLine_startsWith_arrow_iff]
  rw [filter_startsWith_sectionLines (c := '→') result rfl (by decide), targetLines]
  split
  · rename_i window shown
    have closing := fence ""
    rw [String.append_empty] at closing
    rw [List.filter_cons_of_neg (by simp [fence]), List.filter_append, rows,
      List.filter_cons_of_neg (by simp [closing]), List.filter_nil, List.append_nil]
  · rfl

/-- A section has two fences if it has a window, and none otherwise. -/
theorem countP_fence_sectionLines (result : FrameAnalysis) :
    (sectionLines result).countP (·.startsWith codeFence) =
      if result.isResolved then 2 else 0 := by
  have rows (lines : List RelevantLine) :
      (lines.map windowLine).filter (·.startsWith codeFence) = [] := by
    rw [List.filter_eq_nil_iff, List.forall_mem_map]
    intro line mem
    rw [windowLine_not_startsWith_codeFence]
    exact Bool.false_ne_true
  rw [List.countP_eq_length_filter, filter_startsWith_sectionLines (c := '`') result rfl (by decide)]
  split
  · rename_i window shown
    have closing := Text.startsWith_append codeFence ""
    rw [String.append_empty] at closing
    have opening : (codeFence ++ detectLanguage result.frame.filename).startsWith codeFence = true :=
      Text.startsWith_append _ _
    simp only [List.filter_cons, opening, List.filter_append, rows, closing, isResolved_eq, shown]
    rfl
  · rename_i shown
    rw [isResolved_eq, shown]
    rfl

/-! ## Arrows and fences in a report -/

/-- In front of the sections no line starts with a mark. -/
theorem filter_startsWith_traceReportLines {mark : String} {c : Char} (analysis : TraceAnalysis)
    (starts : mark.toList.head? = some c) (no_digit : c.isDigit = false)
    (differs : c ∉ [' ', '*'])
    (heading : "## 🔍 Stack Trace Analysis".startsWith mark = false) :
    (traceReportLines analysis ++ [""]).filter (·.startsWith mark) =
      analysis.results.flatMap fun result => (sectionLines result).filter (·.startsWith mark) := by
  simp only [List.mem_cons, List.not_mem_nil, or_false, not_or] at differs
  obtain ⟨no_blank, no_star⟩ := differs
  have blank : "".startsWith mark = false := Text.startsWith_eq_false starts (by simp)
  have parsed : "**Parsed Stack Trace:**".startsWith mark = false :=
    Text.startsWith_eq_false_of_ne starts rfl no_star
  have context : "**Code Context:**".startsWith mark = false :=
    Text.startsWith_eq_false_of_ne starts rfl no_star
  have entries : ((analysis.frames.mapIdx fun index frame =>
      entryLines (index + 1) frame).flatten).filter (·.startsWith mark) = [] := by
    rw [List.filter_eq_nil_iff]
    intro line mem
    obtain ⟨entry, entry_mem, mem⟩ := List.mem_flatten.mp mem
    obtain ⟨index, bound, rfl⟩ := List.mem_mapIdx.mp entry_mem
    rw [not_startsWith_of_mem_entryLines starts no_digit no_blank line mem]
    exact Bool.false_ne_true
  have sections : ((analysis.results.map fun result =>
      sectionLines result ++ [""]).flatten).filter (·.startsWith mark) =
      analysis.results.flatMap fun result => (sectionLines result).filter (·.startsWith mark) := by
    rw [← List.flatMap_def, List.filter_flatMap]
    simp only [List.filter_append, List.filter_cons, blank, Bool.false_eq_true, if_false,
      List.filter_nil, List.append_nil]
  -- only the sections have lines that start with the mark
  rw [traceReportLines]
  simp only [List.filter_append, List.filter_cons, heading, blank, parsed, context, entries,
    sections, List.filter_nil, Bool.false_eq_true, if_false, List.nil_append, List.append_nil]

theorem countP_fence_traceReportLines (analysis : TraceAnalysis) :
    (traceReportLines analysis ++ [""]).countP (·.startsWith codeFence) =
      2 * (analysis.results.filter (·.isResolved)).length := by
  rw [List.countP_eq_length_filter,
    filter_startsWith_traceReportLines (c := '`') analysis rfl (by decide) (by decide)
      (Text.startsWith_eq_false_of_ne (c := '`') rfl rfl (by decide))]
  induction analysis.results with
  | nil => rfl
  | cons result results ih =>
    rw [List.flatMap_cons, List.length_append, ih, ← List.countP_eq_length_filter,
      countP_fence_sectionLines, List.filter_cons]
    split
    · rw [List.length_cons]
      omega
    · rw [Nat.zero_add]

theorem filter_arrow_traceReportLines (analysis : TraceAnalysis) :
    (traceReportLines analysis ++ [""]).filter (·.startsWith arrow) =
      analysis.results.flatMap targetLines := by
  rw [filter_startsWith_traceReportLines (c := '→') analysis rfl (by decide) (by decide)
    (Text.startsWith_eq_false_of_ne (c := '→') rfl rfl (by decide))]
  simp only [filter_arrow_sectionLines]

/-! ## The lines behind the arrows -/

/-- Whether a line shows the line of the file that a frame names, with an arrow and its number in
front of it. -/
def ShowsSource (system : FileSystem) (shown : String) (result : FrameAnalysis) : Prop :=
  ∃ path content line, result.outcome.path? = some path ∧ system.readText path = .ok content ∧
    1 ≤ result.frame.line ∧
    (Text.contentLines content)[(result.frame.line - 1).toNat]? = some line ∧
    shown = arrow ++ toString result.frame.line ++ ": " ++ line

/-- The section of a resolved frame has one target, which shows the line of the file. -/
theorem targetLines_of_resolved {system : FileSystem} {scope : Scope} {root : String}
    (radius : 0 ≤ scope.contextRadius) {late : Bool} {frame : Frame}
    (resolved : (analyzeFrameInTime system scope root late frame).isResolved = true) :
    ∃ line, targetLines (analyzeFrameInTime system scope root late frame) = [line] ∧
      ShowsSource system line (analyzeFrameInTime system scope root late frame) := by
  have frame_eq := @frame_analyzeFrameInTime system scope root late frame
  rw [isResolved_eq] at resolved
  obtain ⟨window, window_eq⟩ := Option.isSome_iff_exists.mp resolved
  obtain ⟨path, content, path_eq, read, shown⟩ := windowAround_of_window? window_eq
  obtain ⟨line, counted, in_file, rfl⟩ := windowAround_eq_some_iff.mp shown
  have target := filter_target_relevantLines radius (by omega) in_file
  refine ⟨windowLine ⟨frame.line - 1 + 1, line, .target⟩, ?_,
    path, content, line, path_eq, read, ?_, ?_, ?_⟩
  · rw [targetLines, window_eq]
    simp only [target, List.map_cons, List.map_nil]
  · rw [frame_eq]
    exact counted
  · rw [frame_eq]
    exact in_file
  · rw [windowLine, frame_eq, Int.sub_add_cancel]
    rfl

theorem targetLines_of_not_resolved {result : FrameAnalysis} (resolved : result.isResolved = false) :
    targetLines result = [] := by
  rw [isResolved_eq, Option.isSome_eq_false_iff, Option.isNone_iff_eq_none] at resolved
  rw [targetLines, resolved]

/-- Result by result, resolved frames show their lines, and others show none. -/
theorem forall₂_showsSource {system : FileSystem} {scope : Scope} {root : String}
    (radius : 0 ≤ scope.contextRadius) {results : List FrameAnalysis}
    (analyzed : ∀ result ∈ results, ∃ late frame,
      analyzeFrameInTime system scope root late frame = result) :
    List.Forall₂ (ShowsSource system) (results.flatMap targetLines)
      (results.filter (·.isResolved)) := by
  induction results with
  | nil => exact .nil
  | cons result results ih =>
    obtain ⟨⟨late, frame, rfl⟩, others⟩ := List.forall_mem_cons.mp analyzed
    rw [List.flatMap_cons, List.filter_cons]
    split
    · rename_i resolved
      obtain ⟨line, target, shows_source⟩ := targetLines_of_resolved radius resolved
      rw [target]
      exact .cons shows_source (ih others)
    · rename_i resolved
      rw [targetLines_of_not_resolved (by simpa using resolved)]
      exact ih others

/-- The texts of the analysis of a trace are lines. -/
theorem hasLines_of_analyzeTrace {system : FileSystem} {scope : Scope} {root trace : String}
    {late : Nat → Bool} {analysis : TraceAnalysis}
    (ended : analyzeTrace system scope root trace late = .ok analysis) :
    analysis.HasLines := by
  obtain ⟨frames, parsed, rfl⟩ := analyzeTrace_eq_ok_iff.mp ended
  have frame_lines := hasLines_of_parseTrace parsed
  refine ⟨frame_lines, ?_, ?_⟩
  · intro result mem
    obtain ⟨frame, taken, late, rfl⟩ := exists_of_mem_analyzeFrames mem
    rw [frame_analyzeFrameInTime]
    exact frame_lines frame ((takeUpTo_isPrefix _ _).mem taken)
  · intro result mem window window_eq
    obtain ⟨frame, -, late, rfl⟩ := exists_of_mem_analyzeFrames mem
    obtain ⟨path, content, -, -, shown⟩ := windowAround_of_window? window_eq
    exact hasLines_of_windowAround shown

/-- In the report on a trace there are two fences and one arrow for each resolved frame, and behind
the arrow stand the number and the text of the line of the file to which the frame was resolved. -/
theorem reportTrace_shows_source {system : FileSystem} {scope : Scope} {root trace : String}
    {frames : List Frame} (parsed : parseTrace TraceRule.all trace = .ok frames)
    (some_frame : frames ≠ []) (radius : 0 ≤ scope.contextRadius) (late : Nat → Bool) :
    ∃ analysis, analyzeTrace system scope root trace late = .ok analysis ∧
      (Text.contentLines (reportTrace analysis)).countP (·.startsWith codeFence) =
        2 * (analysis.results.filter (·.isResolved)).length ∧
      List.Forall₂ (ShowsSource system)
        ((Text.contentLines (reportTrace analysis)).filter (·.startsWith arrow))
        (analysis.results.filter (·.isResolved)) := by
  -- the texts of the analysis are lines, so the report is cut into the lines it was made of
  have ended : ∃ analysis, analyzeTrace system scope root trace late = .ok analysis ∧
      analysis.frames = frames ∧ analysis.results =
        analyzeFrames system scope root late (takeUpTo scope.maxFrames frames) :=
    ⟨_, analyzeTrace_eq_ok_iff.mpr ⟨frames, parsed, rfl⟩, rfl, rfl⟩
  obtain ⟨analysis, ended, rfl, results⟩ := ended
  refine ⟨analysis, ended, ?_, ?_⟩
  · rw [contentLines_reportTrace some_frame (hasLines_of_analyzeTrace ended),
      countP_fence_traceReportLines]
  · rw [contentLines_reportTrace some_frame (hasLines_of_analyzeTrace ended),
      filter_arrow_traceReportLines, results]
    refine @forall₂_showsSource system scope root radius _ fun result mem => ?_
    obtain ⟨frame, -, late, analyzed⟩ := exists_of_mem_analyzeFrames mem
    exact ⟨late, frame, analyzed⟩

/-- A file system with a file of two lines: a fence, and an arrow with a text behind it. -/
def forgedSystem : FileSystem where
  root := .file "a.rb" [0x60, 0x60, 0x60, 0x0A, 0xE2, 0x86, 0x92, 0x20, 0x78] .empty
  working := []

theorem analyzeFrame_forgedSystem :
    analyzeFrame forgedSystem {} "" { filename := "a.rb", line := 2 } = {
      frame := { filename := "a.rb", line := 2 }
      outcome := .resolved "a.rb" {
        path := "a.rb", targetLine := 2
        lines := [⟨1, "```", .before⟩, ⟨2, "→ x", .target⟩] } } := by
  decide +kernel

theorem reportTrace_shows_source_forgedSystem :
    parseTrace TraceRule.all "a.rb:2" = .ok [{ filename := "a.rb", line := 2 }] ∧
      [({ filename := "a.rb", line := 2 } : Frame)] ≠ [] ∧ 0 ≤ ({} : Scope).contextRadius ∧
      ∃ analysis, analyzeTrace forgedSystem {} "" "a.rb:2" = .ok analysis ∧
        (Text.contentLines (reportTrace analysis)).countP (·.startsWith codeFence) = 2 ∧
        (Text.contentLines (reportTrace analysis)).filter (·.startsWith arrow) = ["→ 2: → x"] := by
  have parsed : parseTrace TraceRule.all "a.rb:2" = .ok [{ filename := "a.rb", line := 2 }] := by
    decide
  have radius : 0 ≤ ({} : Scope).contextRadius := by decide
  obtain ⟨analysis, ended, fences, arrows⟩ := @reportTrace_shows_source forgedSystem {} "" _ _
    parsed (List.cons_ne_nil _ _) radius fun _ => false
  have results : analysis.results =
      [analyzeFrame forgedSystem {} "" { filename := "a.rb", line := 2 }] := by
    obtain ⟨frames, parsed', rfl⟩ := analyzeTrace_eq_ok_iff.mp ended
    obtain rfl := Except.ok.inj (parsed.symm.trans parsed')
    rfl
  rw [results, analyzeFrame_forgedSystem] at fences arrows
  refine ⟨parsed, List.cons_ne_nil _ _, radius, analysis, ended, fences, ?_⟩
  -- one line with an arrow, which shows the second line of the file
  generalize (Text.contentLines (reportTrace analysis)).filter (·.startsWith arrow) = shown
    at arrows ⊢
  obtain ⟨first, rest, ⟨path, content, line, path_eq, read, -, in_file, first_eq⟩, others, rfl⟩ :=
    List.forall₂_cons_right_iff.mp arrows
  obtain rfl := Option.some.inj path_eq
  have file_read : forgedSystem.readText "a.rb" = .ok "```\n→ x" := by decide
  obtain rfl := Except.ok.inj (file_read.symm.trans read)
  obtain rfl := Option.some.inj in_file
  obtain rfl := List.forall₂_nil_right_iff.mp others
  rw [first_eq]
  rfl

end TraceInquest
