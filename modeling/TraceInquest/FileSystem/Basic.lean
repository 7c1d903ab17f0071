import TraceInquest.FileSystem.Directory
import TraceInquest.Path
import TraceInquest.Text.Quoted
import TraceInquest.Text.Utf8

/-! # A file system and what can be read from it

A file system is a tree of directories and a working directory in it. A path is followed
component by component from the root or from the working directory: every component, also an
empty one or a dot at the end, needs a directory to be followed in. Names and paths are limited in
size.

Symbolic links, permissions and special files are left out, and so are names that are not Unicode
text: whatever is in a tree can be read, and every name can be written into a report.

* **`FileSystem.resolve path`** — the names that lead from the root to what a path denotes.
* **`FileSystem.readBytes path`**, **`readText path`** — the content of a file.
* **`FileFault`** — why a path cannot be read or made, and what is said of it. -/

namespace TraceInquest

/-- A tree of directories and a working directory in it. -/
structure FileSystem where
  /-- The directory at the root. -/
  root : Directory
  /-- The names that lead from the root to the working directory. -/
  working : List String
  /-- Names in the tree are valid and distinct. -/
  proper : root.isProper = true := by decide

/-- Why a path cannot be read, written or made. -/
inductive FileFault where
  /-- A component of the path does not exist. -/
  | missing
  /-- There already is something. -/
  | exists
  /-- Something on the way is not a directory. -/
  | notDirectory
  /-- A directory where a file is wanted. -/
  | isDirectory
  /-- A component is longer than a name can be, or the path than a path can be. -/
  | nameTooLong
  /-- The path holds a NUL character. -/
  | embeddedNul
  deriving DecidableEq, Repr

/-- What is said of a fault at a path. -/
def FileFault.message (path : String) : FileFault → String
  | .missing => "[Errno 2] No such file or directory: " ++ Text.quoted path
  | .exists => "[Errno 17] File exists: " ++ Text.quoted path
  | .notDirectory => "[Errno 20] Not a directory: " ++ Text.quoted path
  | .isDirectory => "[Errno 21] Is a directory: " ++ Text.quoted path
  | .nameTooLong => "[Errno 36] File name too long: " ++ Text.quoted path
  | .embeddedNul => "embedded null byte"

/-- Whether a path holds a NUL character, which no file name can. -/
def hasNul (path : String) : Bool := path.toList.contains '\x00'

/-- The longest path that can be followed, in bytes. -/
def maxPathSize : Nat := 4095

/-- Whether a path can be followed at all, whatever is there. -/
def checkPath (path : String) : Except FileFault Unit :=
  if hasNul path then .error .embeddedNul
  else if maxPathSize < path.utf8ByteSize then .error .nameTooLong
  else .ok ()

/-- Why the text of a file cannot be read. -/
inductive ReadFault where
  /-- The file cannot be opened. -/
  | file (fault : FileFault)
  /-- Its bytes are not a text. -/
  | undecodable (fault : Text.Utf8.Fault)
  deriving DecidableEq, Repr

/-- The text that bytes spell, with unified newlines. -/
def textOfBytes (bytes : List UInt8) : Except Text.Utf8.Fault String :=
  (Text.Utf8.decode bytes).map fun chars => String.ofList (Text.unifyNewlines chars)

namespace FileSystem

/-- The node that names lead to from the root. -/
def node? (system : FileSystem) (names : List String) : Option Node := system.root.find? names

/-- Follows one component of a path from the directory that names lead to. -/
def follow (system : FileSystem) (names : List String) (component : String) :
    Except FileFault (List String) :=
  match system.node? names with
  | none => .error .missing
  | some (.file _) => .error .notDirectory
  | some (.folder entries) =>
    if component = "" ∨ component = "." then .ok names
    else if component = ".." then .ok names.dropLast
    else if maxNameSize < component.utf8ByteSize then .error .nameTooLong
    else if (entries.lookup component).isSome then .ok (names ++ [component])
    else .error .missing

/-- Where a path starts: at the root or at the working directory. -/
def startOf (system : FileSystem) (path : String) : List String :=
  if Path.isAbsolute path then [] else system.working

/-- The names that lead from the root to what a path denotes. -/
def resolve (system : FileSystem) (path : String) : Except FileFault (List String) := do
  checkPath path
  if path.isEmpty then .error .missing
  else (Path.components path).foldlM system.follow (system.startOf path)

/-- What a path denotes. -/
def get (system : FileSystem) (path : String) : Except FileFault Node := do
  let names ← system.resolve path
  match system.node? names with
  | some node => .ok node
  | none => .error .missing

/-- Whether a path denotes a file. -/
def isFile (system : FileSystem) (path : String) : Bool :=
  match system.get path with
  | .ok (.file _) => true
  | _ => false

/-- The entries of the directory that a path denotes, if it denotes one. -/
def entries? (system : FileSystem) (path : String) : Option Directory :=
  match system.get path with
  | .ok (.folder entries) => some entries
  | _ => none

/-- Whether a path denotes a directory. -/
def isFolder (system : FileSystem) (path : String) : Bool := (system.entries? path).isSome

/-- The bytes of the file that a path denotes. -/
def readBytes (system : FileSystem) (path : String) : Except FileFault (List UInt8) := do
  match ← system.get path with
  | .file bytes => .ok bytes
  | .folder _ => .error .isDirectory

/-- The text of the file that a path denotes, with unified newlines. -/
def readText (system : FileSystem) (path : String) : Except ReadFault String :=
  match system.readBytes path with
  | .error fault => .error (.file fault)
  | .ok bytes => (textOfBytes bytes).mapError .undecodable

end FileSystem

end TraceInquest
