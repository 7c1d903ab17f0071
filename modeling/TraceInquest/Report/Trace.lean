import TraceInquest.Codebase.Analysis

/-! # The report on a trace

The report lists the frames of a trace and shows, for those that were investigated, the lines of
the codebase around them.

* **`reportTrace analysis`** — the report as Markdown. -/

namespace TraceInquest

/-- What is reported of a text without frames. -/
def unparsedMessage : String :=
  "❌ Could not parse stack trace. Please ensure it's in a valid format.\n"

/-- The fence around lines of code. -/
def codeFence : String := "```"

/-- The name of a function in the list of frames. -/
def shownFunction (frame : Frame) : String :=
  if frame.hasFunction then frame.function else "<anonymous>"

/-- The entry of a frame in the list of frames. -/
def reportFrame (number : Nat) (frame : Frame) : String :=
  toString number ++ ". `" ++ shownFunction frame ++ "`\n" ++
    "   📁 " ++ frame.filename ++ ":" ++ toString frame.line ++ "\n"

/-- A line of a window, with an arrow in front of the target. -/
def reportLine (line : RelevantLine) : String :=
  (if line.role = .target then "→ " else "  ") ++ toString line.number ++ ": " ++
    line.content ++ "\n"

/-- The lines around a frame. -/
def reportWindow (frame : Frame) (window : ContextWindow) : String :=
  "### 📄 `" ++ frame.filename ++ "` (Line " ++ toString frame.line ++ ")\n\n" ++
    codeFence ++ detectLanguage frame.filename ++ "\n" ++
    String.join (window.lines.map reportLine) ++ codeFence ++ "\n" ++
    if window.containingFunction = unknownFunction then ""
    else "🔧 **Function:** `" ++ window.containingFunction ++ "`\n"

/-- What became of a frame. -/
def reportResult (result : FrameAnalysis) : String :=
  match result.outcome with
  | .notFound =>
    "❓ **File not found:** `" ++ result.frame.filename ++
      "` - May be from external library or different path structure.\n"
  | .noContext _ =>
    "⚠️ **No context available:** `" ++ result.frame.filename ++ "` has no line " ++
      toString result.frame.line ++ ".\n"
  | .resolved _ window => reportWindow result.frame window

/-- The report on a trace. -/
def reportTrace (analysis : TraceAnalysis) : String :=
  if analysis.isParsed then
    "## 🔍 Stack Trace Analysis\n\n**Parsed Stack Trace:**\n" ++
      String.join (analysis.frames.mapIdx fun index frame => reportFrame (index + 1) frame) ++
      "\n**Code Context:**\n\n" ++
      String.join (analysis.results.map fun result => reportResult result ++ "\n")
  else unparsedMessage

end TraceInquest
