import TraceInquest.Codebase.Scope
import TraceInquest.FileSystem.Basic
import TraceInquest.Settings.EnvFile
import TraceInquest.Settings.Value
import TraceInquest.Text.Case

/-! # The settings of a run

A setting is taken from where it is given first: directly, in the environment, in the `.env` file
of the working directory; otherwise it has its default. Capitals in names do not matter; if one
place gives a setting under several spellings, the first one counts among values given directly,
and the last one elsewhere. Names that are no settings are passed over. All settings are checked,
and all problems are reported.

* **`Settings`** — the settings; **`Settings.scope`** the scope of the investigation they set.
* **`SettingSources`** — where settings are given.
* **`readSettings sources`** — the settings, or all their problems. -/

namespace TraceInquest

/-- The settings of a run. -/
structure Settings where
  /-- The root of the codebase. -/
  codebasePath : String
  /-- The file with the trace; without one, the trace is read from standard input. -/
  stackTraceFile : String := ""
  /-- How many lines are shown before and after the line of a frame. -/
  contextRadius : Int := 3
  /-- How many frames are investigated. -/
  maxFrames : Int := 5
  /-- How many files are summarised. -/
  maxFiles : Int := 50
  /-- How many seconds a frame may take, if that is limited. -/
  frameTimeout : Option Float := none
  /-- Where the report is written. -/
  artifactsDir : String := "__artifacts__"

/-- The names under which the settings are given. -/
def settingNames : List String :=
  ["codebase_path", "stack_trace_file", "context_radius", "max_frames", "max_files",
   "frame_timeout", "artifacts_dir"]

/-- The scope of the investigation. -/
def Settings.scope (settings : Settings) : Scope where
  contextRadius := settings.contextRadius
  maxFrames := settings.maxFrames
  maxFiles := settings.maxFiles
  frameTimeout := settings.frameTimeout

/-- Where settings are given, each list in order. -/
structure SettingSources where
  /-- Values given directly. -/
  direct : List (String × SettingValue) := []
  /-- The environment. -/
  environment : List (String × String) := []
  /-- The names bound in the file of settings. -/
  file : List (String × Option String) := []

/-- The first value given for a name, whatever the case of its letters. -/
def firstFor {α : Type} (name : String) (given : List (String × α)) : Option α :=
  (given.find? fun pair => Text.lower pair.1 == name).map (·.2)

/-- The last value given for a name, whatever the case of its letters. -/
def lastFor {α : Type} (name : String) (given : List (String × α)) : Option α :=
  firstFor name given.reverse

/-- What is given for a setting. -/
def SettingSources.value? (sources : SettingSources) (name : String) : Option SettingValue :=
  match firstFor name sources.direct with
  | some value => some value
  | none =>
    match lastFor name sources.environment with
    | some text => some (.text text)
    | none => ((lastFor name sources.file).bind id).map .text

/-- A problem with the setting of a name. -/
structure SettingFault where
  name : String
  problem : SettingProblem
  deriving DecidableEq, Repr

/-- What is said of a problem with a setting. -/
def SettingFault.message (fault : SettingFault) : String :=
  fault.name ++ ": " ++ fault.problem.message

/-- What is said of several problems, one a line. -/
def faultsMessage (faults : List SettingFault) : String :=
  String.intercalate "\n" (faults.map (·.message))

/-- The setting of a name, read by `read`; if it is not given, its default, if it has one. -/
def readSetting {α : Type} (sources : SettingSources) (name : String) (default? : Option α)
    (read : SettingValue → Except SettingProblem α) : Except SettingFault α :=
  match sources.value? name, default? with
  | some value, _ => (read value).mapError (⟨name, ·⟩)
  | none, some value => .ok value
  | none, none => .error ⟨name, .missing⟩

/-- The problem of a setting, if it has one. -/
def faultOf {α : Type} : Except SettingFault α → List SettingFault
  | .ok _ => []
  | .error fault => [fault]

/-- The settings that the sources give, or the problems of all settings. -/
def readSettings (sources : SettingSources) : Except (List SettingFault) Settings :=
  let codebasePath := readSetting sources "codebase_path" none SettingValue.asText
  let stackTraceFile := readSetting sources "stack_trace_file" (some "") SettingValue.asText
  let contextRadius :=
    readSetting sources "context_radius" (some 3) (SettingValue.asIntegerFrom 0)
  let maxFrames := readSetting sources "max_frames" (some 5) (SettingValue.asIntegerFrom 1)
  let maxFiles := readSetting sources "max_files" (some 50) (SettingValue.asIntegerFrom 1)
  let frameTimeout :=
    readSetting sources "frame_timeout" (some none) SettingValue.asOptionalNumber
  let artifactsDir :=
    readSetting sources "artifacts_dir" (some "__artifacts__") SettingValue.asText
  let settings : Except SettingFault Settings := do
    return {
      codebasePath := ← codebasePath
      stackTraceFile := ← stackTraceFile
      contextRadius := ← contextRadius
      maxFrames := ← maxFrames
      maxFiles := ← maxFiles
      frameTimeout := ← frameTimeout
      artifactsDir := ← artifactsDir }
  settings.mapError fun _ =>
    faultOf codebasePath ++ faultOf stackTraceFile ++ faultOf contextRadius ++
      faultOf maxFrames ++ faultOf maxFiles ++ faultOf frameTimeout ++ faultOf artifactsDir

/-- The name of the file of settings. -/
def envFileName : String := ".env"

/-- The statements of the file of settings in the working directory; there are none without such
a file. -/
def envStatements (system : FileSystem) : Except Text.Utf8.Fault (List EnvFile.Statement) :=
  match system.readText envFileName with
  | .ok text => .ok (EnvFile.readStatements text)
  | .error (.undecodable fault) => .error fault
  | .error (.file _) => .ok []

end TraceInquest
