import TraceInquest.Codebase.Analysis
import TraceInquest.Settings.Basic

/-! # Why a run fails

* **`Failure`** — the causes; **`Failure.message`** what is said of each. -/

namespace TraceInquest

/-- Why a run ends without a report. -/
inductive Failure where
  /-- Settings are missing or bad. -/
  | settings (faults : List SettingFault)
  /-- The root of the codebase is not a directory. -/
  | noCodebase (path : String)
  /-- A file or directory cannot be read or made. -/
  | file (path : String) (fault : FileFault)
  /-- A file or the standard input is not a text. -/
  | undecodable (fault : Text.Utf8.Fault)
  /-- A number of a frame is too long. -/
  | numeral (fault : Text.NumeralTooLong)
  /-- The ignore file of the codebase has a bad line. -/
  | ignore (fault : IgnoreFault)
  /-- A file of the codebase has the empty path. -/
  | emptyPath
  deriving DecidableEq, Repr

namespace Failure

/-- What is said of a failure. -/
def message : Failure → String
  | settings faults => faultsMessage faults
  | noCodebase path => "Codebase path does not exist: " ++ path
  | file path fault => fault.message path
  | undecodable fault => fault.message
  | numeral fault => fault.message
  | ignore fault => fault.message
  | emptyPath => "no path specified"

/-- The failure of reading the text of a file. -/
def ofReading (path : String) : ReadFault → Failure
  | .file fault => file path fault
  | .undecodable fault => undecodable fault

/-- The failure of summarising a codebase. -/
def ofCodebase : CodebaseFault → Failure
  | .ignore fault => ignore fault
  | .file path fault => file path fault

end Failure

end TraceInquest
