import TraceInquest.Proofs.Codebase.FrameOrder
import TraceInquest.Proofs.Report.Headings
import TraceInquest.Proofs.Run.Messages

/-! # The log of a run on a trace

The log says how many frames were parsed, how many of them were investigated and what became of
each; the report has a section for each that was found.

* **`AgreesOnTrace`** — what a log and a report have to agree in.
* **`traceRunEvents`** — the events of a run on a trace.
* **`agreesOnTrace`** — their messages agree with the report. -/

namespace TraceInquest

variable {settings : Settings} {trace path : String} {system : FileSystem} {scope : Scope}
  {analysis : TraceAnalysis} {late : Nat → Bool} {front back : String}

/-! ## Agreement -/

/-- Whether a log and a report agree on a trace, of which no more than so many frames are wanted. -/
structure AgreesOnTrace (trace : String) (limit : Int) (analysis : TraceAnalysis)
    (log : List String) (report : String) : Prop where
  -- the frames of the trace, and the first of them, which are investigated
  frames_parsed : parseTrace TraceRule.all trace = .ok analysis.frames
  wanted_length : (analysis.results.length : Int) = min (analysis.frames.length : Int) limit
  wanted_frames : analysis.results.map (·.frame) <+: analysis.frames
  -- the numbers in the log
  parsed_said : messagesBetween "[Investigation] Parsed " " frames" log =
    if analysis.isParsed then
      ["[Investigation] Parsed " ++ toString analysis.frames.length ++ " frames"]
    else []
  parsing_said : messagesBetween "[1/3] Stack trace parsed: " " frames" log =
    ["[1/3] Stack trace parsed: " ++ toString analysis.frames.length ++ " frames"]
  frames_said : messagesBetween "[2/3] Frames analyzed: " "" log =
    ["[2/3] Frames analyzed: " ++ toString analysis.results.length ++ ", with context: " ++
      toString analysis.resolvedCount]
  -- the messages on single frames, and the sections of the report
  frame_messages : log.filter isFrameMessage = analysis.results.map frameMessage
  resolved_messages : (log.filter isFrameMessage).countP (·.endsWith "-> resolved") =
    analysis.resolvedCount
  sections : countHeadings report = analysis.resolvedCount

/-- Without a limit of time nothing is said of time running out. -/
theorem traceEvents_eq (unlimited : scope.frameTimeout = none) :
    traceEvents scope analysis late =
      if analysis.isParsed then
        .traceParsed analysis.frames.length :: analysis.results.map (·.event)
      else [.traceUnparsed] := by
  have no_timeouts : timeoutEvents scope late analysis.results = [] := by
    rw [timeoutEvents, List.filterMap_eq_nil_iff]
    rintro ⟨result, number⟩ -
    exact if_neg (by rw [timesOut_of_none unlimited]; exact Bool.false_ne_true)
  rw [traceEvents, no_timeouts, List.nil_append]

/-- What is said of the frames of a trace starts alike. -/
theorem messagesBetween_traceEvents (unlimited : scope.frameTimeout = none)
    (unlike : Text.StartUnlike "[Investigation] Could not parse stack trace" front ∧
      Text.StartUnlike "[Investigation] Parsed " front ∧ Text.StartUnlike "[Investigation] " front) :
    messagesBetween front back ((traceEvents scope analysis late).map (·.message)) = [] := by
  refine messagesBetween_of_unlike ?_
  rw [traceEvents_eq unlimited]
  split
  · exact List.forall_mem_cons.mpr ⟨unlike.2.1, List.forall_mem_map.mpr fun _ _ => unlike.2.2⟩
  · exact List.forall_mem_singleton.mpr unlike.1

/-! ## The log of a run on a trace -/

/-- The events of a run on a trace. -/
def traceRunEvents (scope : Scope) (analysis : TraceAnalysis) (late : Nat → Bool) (path : String) :
    List Event :=
  titleEvents ++ (traceEvents scope analysis late ++ [.parsingDone analysis.frames.length,
    .framesDone analysis.results.length analysis.resolvedCount, .reportDone]) ++
    [.reportSaved path]

theorem messagesBetween_traceRunEvents (bracket : front.toList.head? = some '[') :
    messagesBetween front back ((traceRunEvents scope analysis late path).map (·.message)) =
      messagesBetween front back ((traceEvents scope analysis late).map (·.message)) ++
        messagesBetween front back ([Event.parsingDone analysis.frames.length,
          .framesDone analysis.results.length analysis.resolvedCount,
          .reportDone].map (·.message)) := by
  rw [traceRunEvents, messagesBetween_run bracket, List.map_append, messagesBetween_append]

/-- The message on the frames that were parsed. -/
theorem messagesBetween_traceParsed (unlimited : scope.frameTimeout = none) :
    messagesBetween "[Investigation] Parsed " " frames"
        ((traceRunEvents scope analysis late path).map (·.message)) =
      if analysis.isParsed then
        ["[Investigation] Parsed " ++ toString analysis.frames.length ++ " frames"]
      else [] := by
  -- a file may be called "Parsed …", but what is said of it ends with its status
  have frames : messagesBetween "[Investigation] Parsed " " frames"
      ((analysis.results.map (·.event)).map (·.message)) = [] := by
    rw [List.map_map]
    refine List.filter_eq_nil_iff.mpr (List.forall_mem_map.mpr fun result _ kept => ?_)
    have ends := not_endsWith_frameMessage (by decide : EndsUnlikeStatus " frames") result
    rw [Function.comp, message_event, ends, Bool.and_false] at kept
    cases kept
  have numbers : ∀ event ∈ [Event.parsingDone analysis.frames.length,
      .framesDone analysis.results.length analysis.resolvedCount, .reportDone],
      Text.StartUnlike event.front "[Investigation] Parsed " := by
    simp only [List.forall_mem_cons, Event.front]
    decide
  rw [messagesBetween_traceRunEvents rfl, messagesBetween_of_unlike numbers, List.append_nil,
    traceEvents_eq unlimited]
  split
  · rw [messagesBetween_cons, frames, List.append_nil]
    exact messagesBetween_singleton _ _ _
  · exact messagesBetween_of_unlike (by decide)

/-- The message on the end of the parsing. -/
theorem messagesBetween_parsingDone (unlimited : scope.frameTimeout = none) :
    messagesBetween "[1/3] Stack trace parsed: " " frames"
        ((traceRunEvents scope analysis late path).map (·.message)) =
      ["[1/3] Stack trace parsed: " ++ toString analysis.frames.length ++ " frames"] := by
  have later : ∀ event ∈ [Event.framesDone analysis.results.length analysis.resolvedCount,
      .reportDone], Text.StartUnlike event.front "[1/3] Stack trace parsed: " := by
    simp only [List.forall_mem_cons, Event.front]
    decide
  rw [messagesBetween_traceRunEvents rfl, messagesBetween_traceEvents unlimited (by decide),
    List.nil_append, messagesBetween_cons, messagesBetween_of_unlike later, List.append_nil]
  exact messagesBetween_singleton _ _ _

/-- The message on the frames that were investigated. -/
theorem messagesBetween_framesDone (unlimited : scope.frameTimeout = none) :
    messagesBetween "[2/3] Frames analyzed: " ""
        ((traceRunEvents scope analysis late path).map (·.message)) =
      ["[2/3] Frames analyzed: " ++ toString analysis.results.length ++ ", with context: " ++
        toString analysis.resolvedCount] := by
  have earlier : ∀ event ∈ [Event.parsingDone analysis.frames.length],
      Text.StartUnlike event.front "[2/3] Frames analyzed: " := by
    simp only [List.forall_mem_cons, Event.front]
    decide
  have message : (Event.framesDone analysis.results.length analysis.resolvedCount).message =
      "[2/3] Frames analyzed: " ++ (toString analysis.results.length ++ ", with context: " ++
        toString analysis.resolvedCount) ++ "" := by
    unfold Event.message
    simp only [String.append_assoc, String.append_empty]
  rw [messagesBetween_traceRunEvents rfl, messagesBetween_traceEvents unlimited (by decide),
    ← List.singleton_append, List.map_append, messagesBetween_append,
    messagesBetween_of_unlike earlier, messagesBetween_cons,
    messagesBetween_of_unlike (by decide), message, messagesBetween_singleton]
  simp only [String.append_assoc, String.append_empty, List.nil_append, List.append_nil]

/-- The messages on single frames. -/
theorem filter_isFrameMessage_traceRunEvents (unlimited : scope.frameTimeout = none)
    (none_left : analysis.frames = [] → analysis.results = []) :
    ((traceRunEvents scope analysis late path).map (·.message)).filter isFrameMessage =
      analysis.results.map frameMessage := by
  have frames : ((analysis.results.map (·.event)).map (·.message)).filter isFrameMessage =
      analysis.results.map frameMessage := by
    have messages : (analysis.results.map (·.event)).map (·.message) =
        analysis.results.map frameMessage := by
      rw [List.map_map]
      exact List.map_congr_left fun result _ => message_event result
    rw [messages, List.filter_eq_self]
    exact List.forall_mem_map.mpr fun result _ => isFrameMessage_frameMessage result
  have numbers : ∀ event ∈ [Event.parsingDone analysis.frames.length,
      .framesDone analysis.results.length analysis.resolvedCount, .reportDone],
      Text.StartUnlike event.front "[Investigation] " := by
    simp only [List.forall_mem_cons, Event.front]
    decide
  have no_numbers := filter_messages_eq_nil startsWith_of_isFrameMessage fun event mem =>
    Event.not_startsWith (numbers event mem)
  rw [traceRunEvents, filter_messages_run startsWith_of_isFrameMessage rfl, List.map_append,
    List.filter_append, no_numbers, List.append_nil, traceEvents_eq unlimited]
  split
  · -- the message on the parsing starts like those on frames, but ends unlike them
    have parsed : isFrameMessage (Event.traceParsed analysis.frames.length).message = false :=
      not_isFrameMessage (by decide : EndsUnlikeStatus " frames") (Text.endsWith_append _ _)
    rw [List.map_cons, List.filter_cons, parsed, frames]
    rfl
  · rename_i not_parsed
    have no_frames : analysis.frames = [] := by
      simpa [TraceAnalysis.isParsed] using not_parsed
    have unparsed : isFrameMessage Event.traceUnparsed.message = false :=
      not_isFrameMessage (by decide : EndsUnlikeStatus " trace")
        (Text.endsWith_append "[Investigation] Could not parse stack" " trace")
    rw [none_left no_frames, List.map_singleton, List.filter_singleton, unparsed]
    rfl

/-- The title of a report is not the heading of a section. -/
theorem countHeadings_titled (report : String) :
    countHeadings ("# 🐛 Issue Investigation Report\n\n" ++ report) = countHeadings report := by
  have title : "# 🐛 Issue Investigation Report\n\n" =
      Text.ofLines ["# 🐛 Issue Investigation Report", ""] := by
    decide
  have heading : "# 🐛 Issue Investigation Report".startsWith headingMark = false :=
    not_startsWith_headingMark (by decide)
  have others : ∀ line ∈ ["# 🐛 Issue Investigation Report", ""],
      line.startsWith headingMark = false :=
    List.forall_mem_cons.mpr ⟨heading, List.forall_mem_singleton.mpr not_heading_blank⟩
  rw [title, countHeadings_ofLines_append (by decide) others]

/-- What the log of a run says of a trace agrees with its report. -/
theorem agreesOnTrace (unlimited : settings.scope.frameTimeout = none)
    (positive : 1 ≤ settings.maxFrames)
    (analyzed : analyzeTrace system settings.scope settings.codebasePath trace late =
      .ok analysis) :
    AgreesOnTrace trace settings.maxFrames analysis
      ((traceRunEvents settings.scope analysis late path).map (·.message))
      ("# 🐛 Issue Investigation Report\n\n" ++ reportTrace analysis) := by
  have has_lines := hasLines_of_analyzeTrace analyzed
  obtain ⟨parsed, results_eq⟩ : parseTrace TraceRule.all trace = .ok analysis.frames ∧
      analysis.results = analyzeFrames system settings.scope settings.codebasePath late
        (takeUpTo settings.maxFrames analysis.frames) := by
    obtain ⟨frames, parsed, rfl⟩ := analyzeTrace_eq_ok_iff.mp analyzed
    exact ⟨parsed, rfl⟩
  have none_left (no_frames : analysis.frames = []) : analysis.results = [] := by
    rw [results_eq, no_frames, List.prefix_nil.mp (takeUpTo_isPrefix _ [])]
    rfl
  have resolved_count : analysis.resolvedCount =
      analysis.results.countP (·.outcome.window?.isSome) := by
    rw [TraceAnalysis.resolvedCount, List.countP_eq_length_filter]
  exact {
    frames_parsed := parsed
    wanted_length := by
      rw [results_eq, analyzeFrames, List.length_mapIdx, length_takeUpTo (by omega)]
    wanted_frames := by
      rw [results_eq, map_frame_analyzeFrames]
      exact takeUpTo_isPrefix _ _
    parsed_said := messagesBetween_traceParsed unlimited
    parsing_said := messagesBetween_parsingDone unlimited
    frames_said := messagesBetween_framesDone unlimited
    frame_messages := filter_isFrameMessage_traceRunEvents unlimited none_left
    resolved_messages := by
      rw [filter_isFrameMessage_traceRunEvents unlimited none_left, List.countP_map, resolved_count]
      exact List.countP_congr fun result _ => by rw [Function.comp, endsWith_resolved_frameMessage]
    sections := by
      rw [countHeadings_titled, countHeadings_reportTrace has_lines none_left, resolved_count]
      exact List.countP_congr fun result _ => by rw [isResolved_eq] }

end TraceInquest
