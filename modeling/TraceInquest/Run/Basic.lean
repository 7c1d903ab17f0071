import TraceInquest.FileSystem.Edit
import TraceInquest.Report.Codebase
import TraceInquest.Report.Trace
import TraceInquest.Run.Event
import TraceInquest.Run.Failure

/-! # A run, from settings to a report

A run reads a stack trace, from a file or from standard input, and writes a report: on the trace
if there is one, or else on the codebase. It changes the file system only by making the directory
of the report and by writing the report into it.

* **`prepare settings system`** — checks the codebase and makes the directory of the report.
* **`composeReport`** — the text of the report.
* **`run settings input timestamp system`** — the whole run: what it said, the file system behind
  it, and the location of the report or the failure. -/

namespace TraceInquest

/-- What standard input holds: nothing if it is a terminal. It is read strictly, as under a UTF-8
locale; that some locales let bytes through that are no text is left out. -/
abbrev Input := Option (List UInt8)

/-- A result together with what was said on the way to it. -/
structure Told (α : Type) where
  /-- The events, the first one first. -/
  events : List Event
  /-- The result, or why there is none. -/
  result : Except Failure α

namespace Told

variable {α β : Type}

/-- A result about which nothing was said. -/
def ofResult (result : Except Failure α) : Told α := ⟨[], result⟩

/-- Nothing but something said. -/
def say (events : List Event) : Told Unit := ⟨events, .ok ()⟩

/-- One piece of work after another; a failure ends it. -/
def andThen (first : Told α) (second : α → Told β) : Told β :=
  match first.result with
  | .ok value => { second value with events := first.events ++ (second value).events }
  | .error failure => ⟨first.events, .error failure⟩

instance : Monad Told where
  pure value := ⟨[], .ok value⟩
  bind := andThen

end Told

/-- Checks that the codebase exists and makes the directory of the report: the file system then,
and why the run has to end, if it has to. -/
def prepare (settings : Settings) (system : FileSystem) : FileSystem × Option Failure :=
  let codebase := (Location.ofPath settings.codebasePath).text
  match system.get codebase with
  | .ok (.folder _) =>
    let made := system.makeFolders (Location.ofPath settings.artifactsDir)
    (made.system, made.fault?.map fun (fault, location) => .file location.text fault)
  | .error .nameTooLong => (system, some (.file codebase .nameTooLong))
  | _ => (system, some (.noCodebase codebase))

/-- The stack trace: the text of the file that is set, or else of standard input. -/
def readTrace (settings : Settings) (input : Input) (system : FileSystem) :
    Except Failure String :=
  if settings.stackTraceFile.isEmpty then
    match input with
    | none => .ok ""
    | some bytes => (textOfBytes bytes).mapError .undecodable
  else
    let path := (Location.ofPath settings.stackTraceFile).text
    (system.readText path).mapError (Failure.ofReading path)

/-- The title of the report on a trace. -/
def traceReportTitle : String := "# 🐛 Issue Investigation Report\n\n"

/-- Investigates a trace and reports on it; `late` says which frames take longer than the limit. -/
def investigate (settings : Settings) (trace : String) (system : FileSystem)
    (late : Nat → Bool := fun _ => false) : Told String := do
  let scope := settings.scope
  let analysis ← Told.ofResult <|
    (analyzeTrace system scope settings.codebasePath trace late).mapError .numeral
  Told.say (traceEvents scope analysis late)
  Told.say [.parsingDone analysis.frames.length,
    .framesDone analysis.results.length analysis.resolvedCount]
  Told.say [.reportDone]
  return traceReportTitle ++ reportTrace analysis

/-- Summarises the codebase and reports on it. -/
def summarize (settings : Settings) (system : FileSystem) : Told String := do
  Told.say [.codebaseStarted]
  let root := settings.codebasePath
  let codebase ← Told.ofResult <|
    (analyzeCodebase system settings.scope root).mapError Failure.ofCodebase
  Told.say codebase.events
  Told.ofResult <|
    match reportCodebase system.working root codebase.analyses with
    | some report => .ok report
    | none => .error .emptyPath

/-- Whether a text has nothing but blanks. -/
def isBlankText (text : String) : Bool := text.toList.all Text.isBlank

/-- The text of the report: on the trace if there is one, or else on the codebase. -/
def composeReport (settings : Settings) (input : Input) (system : FileSystem)
    (late : Nat → Bool := fun _ => false) : Told String := do
  Told.say titleEvents
  let trace ← Told.ofResult (readTrace settings input system)
  if isBlankText trace then
    Told.say [.noTrace]
    summarize settings system
  else investigate settings trace system late

/-- The location of the report of a run at some time. -/
def reportLocation (settings : Settings) (timestamp : String) : Location :=
  (Location.ofPath settings.artifactsDir).child (timestamp ++ ".investigation.md")

/-- What a run leaves behind. -/
structure RunOutcome where
  /-- What was said. -/
  events : List Event
  /-- The file system behind the run. -/
  system : FileSystem
  /-- Where the report was written, or why there is none. -/
  result : Except Failure Location

/-- Writes the report of a run into the directory that was made for it: the file system then, and
why the run has to end, if it has to. The file is opened first, which empties it, and then the
report is written; a text has no characters that cannot be encoded. -/
def saveReport (settings : Settings) (timestamp report : String) (system : FileSystem) :
    FileSystem × Option Failure :=
  let location := reportLocation settings timestamp
  match system.writeFile location [] with
  | .error fault => (system, some (.file location.text fault))
  | .ok opened =>
    match opened.writeFile location (Text.Utf8.encode report) with
    | .error fault => (opened, some (.file location.text fault))
    | .ok written => (written, none)

/-- A run with given settings at some time; `late` says which frames take longer than the limit. -/
def run (settings : Settings) (input : Input) (timestamp : String) (system : FileSystem)
    (late : Nat → Bool := fun _ => false) : RunOutcome :=
  match prepare settings system with
  | (prepared, some failure) => ⟨[], prepared, .error failure⟩
  | (prepared, none) =>
    let composed := composeReport settings input prepared late
    match composed.result with
    | .error failure => ⟨composed.events, prepared, .error failure⟩
    | .ok report =>
      match saveReport settings timestamp report prepared with
      | (saved, some failure) => ⟨composed.events, saved, .error failure⟩
      | (saved, none) =>
        let location := reportLocation settings timestamp
        ⟨composed.events ++ [.reportSaved location.text], saved, .ok location⟩

/-- The settings of a run that are given directly, by the environment, or by the file of settings
in the working directory. -/
def gatherSettings (direct : List (String × SettingValue)) (environment : List (String × String))
    (system : FileSystem) : Told Settings := do
  let statements ← Told.ofResult ((envStatements system).mapError .undecodable)
  Told.say ((EnvFile.unreadableLines statements).map .settingUnreadable)
  let file := EnvFile.bindings environment statements
  Told.ofResult ((readSettings { direct, environment, file }).mapError .settings)

/-- A run whose settings are gathered first. -/
def gatherAndRun (direct : List (String × SettingValue)) (environment : List (String × String))
    (input : Input) (timestamp : String) (system : FileSystem)
    (late : Nat → Bool := fun _ => false) : RunOutcome :=
  let gathered := gatherSettings direct environment system
  match gathered.result with
  | .error failure => ⟨gathered.events, system, .error failure⟩
  | .ok settings =>
    let outcome := run settings input timestamp system late
    { outcome with events := gathered.events ++ outcome.events }

end TraceInquest
