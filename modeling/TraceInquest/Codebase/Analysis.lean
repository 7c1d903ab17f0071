import TraceInquest.Codebase.FanOut
import TraceInquest.Codebase.Locate
import TraceInquest.Codebase.Scan
import TraceInquest.Source.Symbols
import TraceInquest.Source.Window
import TraceInquest.Trace.Parse

/-! # Investigating frames and summarising files

* **`analyzeFrame`** — the file of a frame and the lines around it.
* **`analyzeTrace`** — the frames of a trace, the first of them with their files.
* **`analyzeFile`** — what one file declares and imports.
* **`analyzeCodebase`** — what the files of a codebase declare and import. -/

namespace TraceInquest

/-! ## Frames -/

/-- What became of a frame. -/
inductive FrameOutcome where
  /-- Its line was found, in the file at a path. -/
  | resolved (path : String) (window : ContextWindow)
  /-- No file of its name was found in the codebase. -/
  | notFound
  /-- The file at a path has no such line. -/
  | noContext (path : String)
  deriving DecidableEq, Repr

namespace FrameOutcome

/-- The word for an outcome. -/
def status : FrameOutcome → String
  | resolved _ _ => "resolved"
  | notFound => "not_found"
  | noContext _ => "no_context"

/-- The path of the file, if one was found. -/
def path? : FrameOutcome → Option String
  | resolved path _ => some path
  | notFound => none
  | noContext path => some path

/-- The lines around the line of the frame, if it was found. -/
def window? : FrameOutcome → Option ContextWindow
  | resolved _ window => some window
  | _ => none

end FrameOutcome

/-- A frame and what became of it. -/
structure FrameAnalysis where
  frame : Frame
  outcome : FrameOutcome
  deriving DecidableEq, Repr

/-- Looks for the file of a frame and cuts out the lines around its line. -/
def analyzeFrame (system : FileSystem) (scope : Scope) (root : String) (frame : Frame) :
    FrameAnalysis where
  frame := frame
  outcome :=
    match locate system scope root frame.filename with
    | none => .notFound
    | some (path, content) =>
      match windowAround content frame.line scope.contextRadius path with
      | some window => .resolved path window
      | none => .noContext path

/-- The frames of a trace and what became of the first of them. -/
structure TraceAnalysis where
  frames : List Frame
  results : List FrameAnalysis
  deriving DecidableEq, Repr

/-- Whether the trace has frames at all. -/
def TraceAnalysis.isParsed (analysis : TraceAnalysis) : Bool := !analysis.frames.isEmpty

/-- Investigates a frame in the time that is allowed for one: a frame whose time runs out counts as
one without a file. -/
def analyzeFrameInTime (system : FileSystem) (scope : Scope) (root : String) (late : Bool)
    (frame : Frame) : FrameAnalysis :=
  if scope.timesOut late then { frame, outcome := .notFound }
  else analyzeFrame system scope root frame

/-- Reads a trace and investigates its first frames, all of them at the same time. Which of them
take longer than the limit is not up to the trace: `late` says so for the number of each. -/
def analyzeTrace (system : FileSystem) (scope : Scope) (root trace : String)
    (late : Nat → Bool := fun _ => false) : Except Text.NumeralTooLong TraceAnalysis := do
  let frames ← parseTrace TraceRule.all trace
  let selected := takeUpTo scope.maxFrames frames
  let collected := selected.zipIdx.map fun (frame, number) =>
    (analyzeFrameInTime system scope root (late number) frame, number)
  return { frames, results := inNumberOrder collected }

/-! ## Files -/

/-- What a file declares and imports. -/
structure FileAnalysis where
  /-- The file, as it was named. -/
  path : String
  /-- Its text. -/
  content : String
  /-- The number of pieces between line feeds. -/
  lineCount : Int
  /-- The functions it declares, in order of appearance. -/
  functions : List String
  /-- The modules it imports, in order of appearance. -/
  imports : List String
  /-- The lines around a target line, if one was given and the file has it. -/
  relevant? : Option (List RelevantLine) := none
  deriving DecidableEq, Repr

/-- The analysis of a file with a given text. -/
def analyzeContent (scope : Scope) (path content : String) (targetLine? radius? : Option Int) :
    FileAnalysis :=
  let lines := Text.contentLines content
  { path, content
    lineCount := lines.length
    functions := extractFunctions content
    imports := extractImports content
    relevant? := targetLine?.bind fun target =>
      if 1 ≤ target ∧ target ≤ lines.length then
        some (relevantLines lines (target - 1) (radius?.getD scope.contextRadius))
      else none }

/-- The analysis of a file, if it is a text file. Only a path with a NUL character cannot be asked
for. -/
def analyzeFile (system : FileSystem) (scope : Scope) (path : String)
    (targetLine? radius? : Option Int) : Except FileFault (Option FileAnalysis) :=
  if hasNul path then .error .embeddedNul
  else
    .ok <| (readSource? system path).map fun content =>
      analyzeContent scope path content targetLine? radius?

/-! ## Codebases -/

/-- The sources of a codebase and what was found in each. -/
structure CodebaseAnalysis where
  /-- The list of sources. -/
  scan : Scan
  /-- The wanted sources in their order, with their analyses where they are text files. -/
  outcomes : List (String × Option FileAnalysis)
  deriving DecidableEq, Repr

/-- The analyses of the sources that are text files. -/
def CodebaseAnalysis.analyses (codebase : CodebaseAnalysis) : List FileAnalysis :=
  codebase.outcomes.filterMap (·.2)

/-- Lists the sources that are not ignored and analyses each. -/
def analyzeSources (system : FileSystem) (scope : Scope) (root : String)
    (context : IgnoreContext) : Except CodebaseFault CodebaseAnalysis := do
  let scan ← (scan system scope root context).mapError (.file root)
  let outcomes ← scan.files.mapM fun path => do
    let location := Path.join root path
    let analysis ← (analyzeFile system scope location none none).mapError (.file location)
    return (path, analysis)
  return { scan, outcomes }

/-- Lists the sources of a codebase and analyses each. -/
def analyzeCodebase (system : FileSystem) (scope : Scope) (root : String) :
    Except CodebaseFault CodebaseAnalysis := do
  let context ← loadIgnoreContext system root
  analyzeSources system scope root context

end TraceInquest
