import Std.Time.Format
import TraceInquest.Run.Basic

/-! # The command line

The command takes its settings from the environment and from the file of settings in the working
directory. It loads what the run can look at, lets the run take place on that, says what the run
said, and writes down what the run left behind. -/

namespace TraceInquest.CommandLine

/-! ## Loading files -/

/-- The bytes of the file at a path, if it can be read. -/
def fileBytes? (path : String) : IO (Option (List UInt8)) := do
  try return some (← IO.FS.readBinFile path).toList
  catch _ => return none

/-- The names of the entries of the directory at a path, if it is one. -/
def entryNames? (path : String) : IO (Option (List String)) := do
  try
    let entries ← (← IO.FS.realPath path).readDir
    return some (entries.toList.map (·.fileName))
  catch _ => return none

/-- Whether an entry of a directory stands for itself and is no link. -/
def isOwnEntry (folder name : String) : IO Bool := do
  try
    let entry ← IO.FS.realPath (Path.join folder name)
    return toString entry == Path.join (toString (← IO.FS.realPath folder)) name
  catch _ => return false

/-- Loads what is at a path to where names lead, a directory without its entries. -/
def loadNode (path : String) (names : List String) (system : FileSystem) : IO FileSystem := do
  if (system.node? names).isSome then return system
  match ← entryNames? path with
  | some _ => return system.place names (.folder .empty)
  | none =>
    match ← fileBytes? path with
    | some bytes => return system.place names (.file bytes)
    | none => return system

/-- Loads a path and every directory on the way to it. -/
def loadWay (path : String) (system : FileSystem) : IO FileSystem := do
  let components := Path.components path
  (List.range components.length).foldlM (fun system count =>
    let part := Path.ofComponents (components.take (count + 1))
    loadNode part (Path.absolute system.working part) system) system

/-- Loads a directory with all that is in it, except in directories with certain names. -/
partial def loadTree (excluded : List String) (path : String) (names : List String)
    (system : FileSystem) : IO FileSystem := do
  let entries := (← entryNames? path).getD []
  entries.foldlM (fun system name => do
    let entry := Path.join path name
    let system ← loadNode entry (names ++ [name]) system
    if !excluded.contains name && (← isOwnEntry path name) then
      loadTree excluded entry (names ++ [name]) system
    else return system) system

/-- Loads what a run with some settings can look at. -/
def loadFor (settings : Settings) (system : FileSystem) : IO FileSystem := do
  let system ← loadWay settings.artifactsDir system
  let system ← loadWay settings.stackTraceFile system
  let root := settings.codebasePath
  let system ← loadWay root system
  loadTree settings.scope.excludedFolders (Location.ofPath root).text
    (Path.absolute system.working root) system

/-! ## Reading the surroundings -/

/-- The working directory, with nothing loaded but the file of settings. -/
def loadWorking : IO FileSystem := do
  let working := Path.namingComponents (toString (← IO.currentDir))
  let bare : FileSystem := { root := .empty, working }
  loadWay envFileName (bare.place working (.folder .empty))

/-- The variables of the environment that have one of the names. -/
def environmentOf (names : List String) : IO (List (String × String)) := do
  let found ← names.eraseDups.mapM fun name => do
    return (← IO.getEnv name).map fun value => (name, value)
  return found.filterMap id

/-- The variables of the environment that can be settings or that the file of settings refers
to. -/
def readEnvironment (system : FileSystem) : IO (List (String × String)) :=
  let referred := ((envStatements system).toOption.map EnvFile.referredNames).getD []
  environmentOf (settingNames ++ settingNames.map String.toUpper ++ referred)

/-- The rest of a stream. -/
partial def readRest (stream : IO.FS.Stream) (done : ByteArray) : IO ByteArray := do
  let chunk ← stream.read 65536
  if chunk.isEmpty then return done else readRest stream (done ++ chunk)

/-- What standard input holds. -/
def readInput : IO Input := do
  let stream ← IO.getStdin
  if ← stream.isTty then return none
  return some (← readRest stream .empty).toList

/-! ## Running -/

/-- Writes down what a run with some settings left behind. -/
def writeOutcome (settings : Settings) (outcome : RunOutcome) : IO Unit := do
  let folder := Location.ofPath settings.artifactsDir
  for count in List.range (folder.parts.length + 1) do
    let part := { folder with parts := folder.parts.take count }
    if outcome.system.isFolder part.text then IO.FS.createDirAll part.text
  match outcome.result with
  | .ok location =>
    match outcome.system.readBytes location.text with
    | .ok bytes => IO.FS.writeBinFile location.text ⟨bytes.toArray⟩
    | .error fault => throw (IO.userError (fault.message location.text))
  | .error _ => return

/-- A run with settings from the environment, and its exit code. -/
def runOnce : IO UInt32 := do
  let working ← loadWorking
  let environment ← readEnvironment working
  let settings? := (gatherSettings [] environment working).result.toOption
  let system ← match settings? with
    | some settings => loadFor settings working
    | none => pure working
  let input ← match settings? with
    | some settings => if settings.stackTraceFile.isEmpty then readInput else pure none
    | none => pure none
  let timestamp := (← Std.Time.PlainDateTime.now).format "uuuu-MM-dd_HH-mm-ss"
  let outcome := gatherAndRun [] environment input timestamp system
  for event in outcome.events do
    IO.eprintln event.message
  match settings? with
  | some settings => writeOutcome settings outcome
  | none => pure ()
  match outcome.result with
  | .ok _ => return 0
  | .error failure =>
    IO.eprintln failure.message
    return 1

end TraceInquest.CommandLine

/-- Investigates the trace that the settings name and writes a report on it. -/
def main : IO UInt32 := TraceInquest.CommandLine.runOnce
