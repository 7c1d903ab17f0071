import TraceInquest.Codebase.Analysis

/-! # What a run says while it works

* **`Event`** — the steps of a run that are worth a message; **`Event.message`** the message.
* **`traceEvents`** — the events of investigating a trace, read off the results.
* **`Scan.events`**, **`CodebaseAnalysis.events`** — the events of listing the sources of a codebase
  and of summarising it. -/

namespace TraceInquest

/-- A step of a run that is worth a message. -/
inductive Event where
  /-- A statement of the file of settings cannot be read. -/
  | settingUnreadable (line : Nat)
  /-- A line of the title. -/
  | title (text : String)
  | noTrace
  | traceUnparsed
  | traceParsed (frames : Nat)
  | frameTimedOut (filename : String)
  | frameAnalyzed (filename : String) (line : Int) (status : String)
  | parsingDone (frames : Nat)
  | framesDone (results resolved : Nat)
  | reportDone
  | codebaseStarted
  | scanStarted
  | scanFound (files : Nat)
  | scanCut (limit : Int)
  | fileSkipped (path : String)
  | codebaseDone (files : Nat)
  | reportSaved (path : String)
  deriving DecidableEq, Repr

/-- The message of an event. -/
def Event.message : Event → String
  | settingUnreadable line =>
    "python-dotenv could not parse statement starting at line " ++ toString line
  | title text => text
  | noTrace => "No stack trace given, summarizing codebase"
  | traceUnparsed => "[Investigation] Could not parse stack trace"
  | traceParsed frames => "[Investigation] Parsed " ++ toString frames ++ " frames"
  | frameTimedOut filename => "[Investigation] Timed out reading " ++ filename ++ ", skipping"
  | frameAnalyzed filename line status =>
    "[Investigation] " ++ filename ++ ":" ++ toString line ++ " -> " ++ status
  | parsingDone frames => "[1/3] Stack trace parsed: " ++ toString frames ++ " frames"
  | framesDone results resolved =>
    "[2/3] Frames analyzed: " ++ toString results ++ ", with context: " ++ toString resolved
  | reportDone => "[3/3] Report formatted"
  | codebaseStarted => "[Investigation] Starting codebase analysis..."
  | scanStarted => "[Scanner] Scanning files..."
  | scanFound files => "[Scanner] Found " ++ toString files ++ " files"
  | scanCut limit => "[Scanner] Truncated to " ++ toString limit ++ " files"
  | fileSkipped path => "[Investigation] Skipped unreadable file " ++ path
  | codebaseDone files => "[Investigation] Analyzed " ++ toString files ++ " files"
  | reportSaved path => "\n✓ Report saved to " ++ path

/-- The title of a run. -/
def titleEvents : List Event :=
  [.title "╔═══════════════════════════════════════════════════════════╗",
   .title "║          ISSUE INVESTIGATION PIPELINE                     ║",
   .title "╚═══════════════════════════════════════════════════════════╝"]

/-- The event of a frame that was investigated. -/
def FrameAnalysis.event (result : FrameAnalysis) : Event :=
  .frameAnalyzed result.frame.filename result.frame.line result.outcome.status

/-- How many frames were found in the codebase. -/
def TraceAnalysis.resolvedCount (analysis : TraceAnalysis) : Nat :=
  (analysis.results.filter (·.outcome.window?.isSome)).length

/-- The events of frames whose time runs out, in the order of the trace. -/
def timeoutEvents (scope : Scope) (late : Nat → Bool) (results : List FrameAnalysis) :
    List Event :=
  results.zipIdx.filterMap fun (result, number) =>
    if scope.timesOut (late number) then some (.frameTimedOut result.frame.filename) else none

/-- The events of investigating a trace; `late` says which frames take longer than the limit. -/
def traceEvents (scope : Scope) (analysis : TraceAnalysis)
    (late : Nat → Bool := fun _ => false) : List Event :=
  if analysis.isParsed then
    .traceParsed analysis.frames.length ::
      (timeoutEvents scope late analysis.results ++ analysis.results.map (·.event))
  else [.traceUnparsed]

/-- The events of listing the sources of a codebase. -/
def Scan.events (scan : Scan) : List Event :=
  [.scanStarted, .scanFound scan.found.length] ++
    if scan.isCut then [.scanCut scan.limit] else []

/-- The events of summarising a codebase. -/
def CodebaseAnalysis.events (codebase : CodebaseAnalysis) : List Event :=
  codebase.scan.events ++
    (codebase.outcomes.filterMap fun (path, analysis) =>
      if analysis.isSome then none else some (.fileSkipped path)) ++
    [.codebaseDone codebase.analyses.length]

end TraceInquest
