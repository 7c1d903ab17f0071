import TraceInquest.Codebase.Scope
import TraceInquest.FileSystem.Basic
import TraceInquest.Trace.Frame

/-! # Finding the file of a frame

A frame names a file without its directories. The file is looked for in some directories of the
codebase, and the first one there that can be read is taken.

* **`candidates scope root filename`** — where the file may be, in order.
* **`locate system scope root filename`** — the path and the content of the first candidate that
  is a text file.
* **`locatedPath? system scope root filename`** — its path alone. -/

namespace TraceInquest

/-- The places where a file is looked for, in order. -/
def candidates (scope : Scope) (root filename : String) : List String :=
  scope.resolutionPrefixes.map fun folder => Path.join (Path.join root folder) filename

/-- The text of the file that a path denotes, if it denotes a text file. -/
def readSource? (system : FileSystem) (path : String) : Option String :=
  (system.readText path).toOption

/-- The first candidate that is a text file, and its content. -/
def locate (system : FileSystem) (scope : Scope) (root filename : String) :
    Option (String × String) :=
  (candidates scope root filename).findSome? fun path =>
    (readSource? system path).map fun content => (path, content)

/-- The path of the first candidate that is a text file. -/
def locatedPath? (system : FileSystem) (scope : Scope) (root filename : String) : Option String :=
  match locate system scope root filename with
  | some (path, _) => some path
  | none => none

end TraceInquest
