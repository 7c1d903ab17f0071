import TraceInquest.Proofs.Source.Window
import TraceInquest.Proofs.Text.ReadBack
import TraceInquest.Proofs.Trace.Lines
import TraceInquest.Report.Trace

/-! # The lines of the report on a trace

The report on a trace is a list of lines, each ended by a line feed: a heading, two lines for each
frame, and a section for each frame that was investigated, with an empty line behind it.

* **`traceReportLines analysis`** — the lines of the report.
* **`reportTrace_eq`** — the report is made of these lines.
* **`TraceAnalysis.HasLines`** — no text that is shown holds a line feed.
* **`contentLines_reportTrace`** — cutting the report at line feeds gives its lines back. -/

namespace TraceInquest

/-! ## The lines -/

/-- The lines of the entry of a frame. -/
def entryLines (number : Nat) (frame : Frame) : List String :=
  [toString number ++ ". `" ++ shownFunction frame ++ "`",
   "   📁 " ++ frame.filename ++ ":" ++ toString frame.line]

/-- What stands in front of a line of a window. -/
def lineMarker (role : LineRole) : String := if role = .target then "→ " else "  "

/-- A line of a window as it is shown. -/
def windowLine (line : RelevantLine) : String :=
  lineMarker line.role ++ toString line.number ++ ": " ++ line.content

/-- The line that names the function around the target, if one is known. -/
def functionLines (window : ContextWindow) : List String :=
  if window.containingFunction = unknownFunction then []
  else ["🔧 **Function:** `" ++ window.containingFunction ++ "`"]

/-- The lines of the section of a frame. -/
def sectionLines (result : FrameAnalysis) : List String :=
  match result.outcome with
  | .notFound =>
    ["❓ **File not found:** `" ++ result.frame.filename ++
      "` - May be from external library or different path structure."]
  | .noContext _ =>
    ["⚠️ **No context available:** `" ++ result.frame.filename ++ "` has no line " ++
      toString result.frame.line ++ "."]
  | .resolved _ window =>
    ["### 📄 `" ++ result.frame.filename ++ "` (Line " ++ toString result.frame.line ++ ")", "",
      codeFence ++ detectLanguage result.frame.filename] ++
      (window.lines.map windowLine ++ codeFence :: functionLines window)

/-- The lines of the report on a trace with frames. -/
def traceReportLines (analysis : TraceAnalysis) : List String :=
  ["## 🔍 Stack Trace Analysis", "", "**Parsed Stack Trace:**"] ++
    ((analysis.frames.mapIdx fun index frame => entryLines (index + 1) frame).flatten ++
      ["", "**Code Context:**", ""] ++
      (analysis.results.map fun result => sectionLines result ++ [""]).flatten)

/-! ## The report is made of them -/

theorem reportFrame_eq (number : Nat) (frame : Frame) :
    reportFrame number frame = Text.ofLines (entryLines number frame) := by
  rw [reportFrame, entryLines, show "`\n" = "`" ++ "\n" from rfl]
  simp only [Text.ofLines_cons, Text.ofLines_nil, String.append_assoc, String.append_empty]

theorem reportLines_eq (lines : List RelevantLine) :
    String.join (lines.map reportLine) = Text.ofLines (lines.map windowLine) := by
  have one (line : RelevantLine) : reportLine line = windowLine line ++ "\n" := by
    rw [reportLine, windowLine, lineMarker]
  rw [Text.ofLines, List.map_map]
  exact congrArg String.join (List.map_congr_left fun line _ => one line)

theorem reportFunction_eq (window : ContextWindow) :
    (if window.containingFunction = unknownFunction then ""
      else "🔧 **Function:** `" ++ window.containingFunction ++ "`\n") =
      Text.ofLines (functionLines window) := by
  rw [functionLines]
  split
  · rfl
  · rw [Text.ofLines_cons, Text.ofLines_nil, String.append_empty,
      show "`\n" = "`" ++ "\n" from rfl]
    simp only [String.append_assoc]

theorem reportWindow_eq (frame : Frame) (window : ContextWindow) (path : String) :
    reportWindow frame window = Text.ofLines (sectionLines ⟨frame, .resolved path window⟩) := by
  unfold reportWindow
  rw [reportLines_eq, reportFunction_eq, show ")\n\n" = ")" ++ "\n" ++ "\n" from rfl]
  simp only [sectionLines, Text.ofLines_append, Text.ofLines_cons, Text.ofLines_nil,
    String.append_assoc, String.append_empty, String.empty_append]

theorem reportResult_eq (result : FrameAnalysis) :
    reportResult result = Text.ofLines (sectionLines result) := by
  obtain ⟨frame, outcome⟩ := result
  cases outcome with
  | resolved path window => exact reportWindow_eq frame window path
  | notFound =>
    simp only [reportResult, sectionLines, Text.ofLines_cons, Text.ofLines_nil,
      String.append_assoc, String.append_empty, String.reduceAppend]
  | noContext path =>
    simp only [reportResult, sectionLines, Text.ofLines_cons, Text.ofLines_nil,
      String.append_assoc, String.append_empty, String.reduceAppend]

/-- The report on a trace with frames is made of its lines. -/
theorem reportTrace_eq {analysis : TraceAnalysis} (parsed : analysis.frames ≠ []) :
    reportTrace analysis = Text.ofLines (traceReportLines analysis) := by
  have isParsed : analysis.isParsed = true := by
    simpa [TraceAnalysis.isParsed] using parsed
  -- each part of the report is the text of its lines
  have entries : (analysis.frames.mapIdx fun index frame => reportFrame (index + 1) frame) =
      (analysis.frames.mapIdx fun index frame => entryLines (index + 1) frame).map
        Text.ofLines := by
    simp only [reportFrame_eq]
    refine List.mapIdx_eq_iff.mpr fun index => ?_
    rw [List.getElem?_map, List.getElem?_mapIdx, Option.map_map, Function.comp_def]
  have sections : (analysis.results.map fun result => reportResult result ++ "\n") =
      (analysis.results.map fun result => sectionLines result ++ [""]).map Text.ofLines := by
    have blank : Text.ofLines [""] = "\n" := by decide
    rw [List.map_map]
    refine List.map_congr_left fun result _ => ?_
    rw [Function.comp, Text.ofLines_append, reportResult_eq, blank]
  have heading : Text.ofLines ["## 🔍 Stack Trace Analysis", "", "**Parsed Stack Trace:**"] =
      "## 🔍 Stack Trace Analysis\n\n**Parsed Stack Trace:**\n" := by decide
  have context : Text.ofLines ["", "**Code Context:**", ""] = "\n**Code Context:**\n\n" := by
    decide
  rw [reportTrace, if_pos isParsed, entries, sections, ← Text.ofLines_flatten,
    ← Text.ofLines_flatten, traceReportLines, Text.ofLines_append, Text.ofLines_append,
    Text.ofLines_append, heading, context]
  simp only [String.append_assoc]

/-! ## Nothing shown holds a line feed -/

/-- Whether the texts of an analysis that are shown are lines. -/
structure TraceAnalysis.HasLines (analysis : TraceAnalysis) : Prop where
  frame : ∀ frame ∈ analysis.frames, frame.HasLines
  resultFrame : ∀ result ∈ analysis.results, result.frame.HasLines
  window : ∀ result ∈ analysis.results, ∀ window, result.outcome.window? = some window →
    window.HasLines

/-- The labels of languages are lines. -/
theorem isLine_detectLanguage (filename : String) : Text.IsLine (detectLanguage filename) := by
  rw [detectLanguage]
  split
  · rename_i extension _
    cases found : extensionLabels.lookup (String.ofList (extension.map Text.lowerAscii)) with
    | none => decide
    | some label =>
      have labels : ∀ entry ∈ extensionLabels, Text.IsLine entry.2 := by decide
      obtain ⟨before, behind, entries, -⟩ := List.lookup_eq_some_iff.mp found
      refine labels (String.ofList (extension.map Text.lowerAscii), label) ?_
      rw [entries]
      exact List.mem_append_right _ List.mem_cons_self
  · decide

theorem isLine_shownFunction {frame : Frame} (lines : frame.HasLines) :
    Text.IsLine (shownFunction frame) := by
  rw [shownFunction]
  split
  · exact lines.function
  · decide

theorem isLine_of_mem_entryLines {number : Nat} {frame : Frame} (lines : frame.HasLines) :
    ∀ line ∈ entryLines number frame, Text.IsLine line := by
  have function := isLine_shownFunction lines
  have filename := lines.filename
  rw [entryLines, List.forall_mem_cons, List.forall_mem_singleton]
  constructor
  · simp +decide [function]
  · simp +decide [filename]

theorem isLine_windowLine {line : RelevantLine} (content : Text.IsLine line.content) :
    Text.IsLine (windowLine line) := by
  have marker : Text.IsLine (lineMarker line.role) := by
    rw [lineMarker]
    split <;> decide
  simp +decide [windowLine, marker, content]

theorem isLine_of_mem_functionLines {window : ContextWindow} (lines : window.HasLines) :
    ∀ line ∈ functionLines window, Text.IsLine line := by
  have function := lines.containingFunction
  rw [functionLines]
  split
  · simp
  · simp +decide [function]

theorem isLine_of_mem_sectionLines {result : FrameAnalysis} (frame : result.frame.HasLines)
    (window : ∀ window, result.outcome.window? = some window → window.HasLines) :
    ∀ line ∈ sectionLines result, Text.IsLine line := by
  have filename := frame.filename
  rw [sectionLines]
  split
  · simp +decide [filename]
  · simp +decide [filename]
  · rename_i path shown outcome
    have shown_lines := window shown (by rw [outcome]; rfl)
    have heading : ∀ line ∈ ["### 📄 `" ++ result.frame.filename ++ "` (Line " ++
        toString result.frame.line ++ ")", "", codeFence ++ detectLanguage result.frame.filename],
        Text.IsLine line := by
      simp +decide [filename, isLine_detectLanguage]
    have rows : ∀ line ∈ shown.lines.map windowLine, Text.IsLine line := by
      rw [List.forall_mem_map]
      exact fun line mem => isLine_windowLine (shown_lines.content line mem)
    have ending : ∀ line ∈ codeFence :: functionLines shown, Text.IsLine line :=
      List.forall_mem_cons.mpr ⟨by decide, isLine_of_mem_functionLines shown_lines⟩
    exact List.forall_mem_append.mpr ⟨heading, List.forall_mem_append.mpr ⟨rows, ending⟩⟩

/-- Cutting the report at line feeds gives its lines back, and an empty one behind the last. -/
theorem contentLines_reportTrace {analysis : TraceAnalysis} (parsed : analysis.frames ≠ [])
    (lines : analysis.HasLines) :
    Text.contentLines (reportTrace analysis) = traceReportLines analysis ++ [""] := by
  rw [reportTrace_eq parsed]
  refine Text.contentLines_ofLines ?_
  have entries : ∀ line ∈ (analysis.frames.mapIdx fun index frame =>
      entryLines (index + 1) frame).flatten, Text.IsLine line := by
    intro line mem
    obtain ⟨entry, entry_mem, mem⟩ := List.mem_flatten.mp mem
    obtain ⟨index, bound, rfl⟩ := List.mem_mapIdx.mp entry_mem
    exact isLine_of_mem_entryLines (lines.frame _ (List.getElem_mem bound)) line mem
  have sections : ∀ line ∈ (analysis.results.map fun result =>
      sectionLines result ++ [""]).flatten, Text.IsLine line := by
    intro line mem
    obtain ⟨part, part_mem, mem⟩ := List.mem_flatten.mp mem
    obtain ⟨result, result_mem, rfl⟩ := List.mem_map.mp part_mem
    rcases List.mem_append.mp mem with mem | mem
    · exact isLine_of_mem_sectionLines (lines.resultFrame result result_mem)
        (lines.window result result_mem) line mem
    · obtain rfl := List.mem_singleton.mp mem
      decide
  rw [traceReportLines]
  exact List.forall_mem_append.mpr ⟨by decide, List.forall_mem_append.mpr
    ⟨List.forall_mem_append.mpr ⟨entries, by decide⟩, sections⟩⟩

end TraceInquest
