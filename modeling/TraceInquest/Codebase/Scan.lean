import TraceInquest.Codebase.Scope
import TraceInquest.FileSystem.Basic
import TraceInquest.Ignore.Rule
import TraceInquest.Text.Blocks

/-! # Finding the sources of a codebase

The directory tree is walked from its root: the files of a directory in the order of their names,
then its directories in the order of theirs. Excluded and ignored directories are not entered.
A directory whose path is too long to be followed is passed over like an empty one. Files count if
their name has an ending of some group and they are not ignored; those of the first group are
listed first, and the list is cut at the limit.

* **`loadIgnoreContext system root`** — the ignore rules at the root of a codebase.
* **`walk`** — the files that count, each with its group, in the order of the walk.
* **`scan system scope root context`** — the list of sources.
* **`CodebaseFault`** — why a codebase cannot be asked for. -/

namespace TraceInquest

/-- The rules by which paths under a root are ignored. -/
structure IgnoreContext where
  /-- The root of the codebase. -/
  root : String
  /-- The rules of its ignore file, if it has one that can be read. -/
  rules? : Option (List IgnoreRule) := none

/-- Whether a path, relative to the root, is ignored. -/
def IgnoreContext.isIgnored (context : IgnoreContext) (path : String) : Bool :=
  match context.rules? with
  | some rules => TraceInquest.isIgnored rules path
  | none => false

/-- The name of the file with the ignore rules of a codebase. -/
def ignoreFileName : String := ".gitignore"

/-- Why a codebase cannot be listed or summarised. -/
inductive CodebaseFault where
  /-- Its ignore file has a bad line. -/
  | ignore (fault : IgnoreFault)
  /-- A path in it cannot be asked for. -/
  | file (path : String) (fault : FileFault)
  deriving DecidableEq, Repr

/-- The ignore rules of a codebase. A file that is missing or cannot be read to its end holds none;
only one whose path is too long cannot be asked for. The lines are parsed while the file is read, so
that a bad line is a fault also where the file is no text further on. -/
def loadIgnoreContext (system : FileSystem) (root : String) :
    Except CodebaseFault IgnoreContext :=
  let path := ((Location.ofPath root).child ignoreFileName).text
  match system.readBytes path with
  | .ok bytes =>
    let read := Text.readLines Text.blockSize bytes
    ((parseRules read.lines).mapError .ignore).map fun rules =>
      { root, rules? := if read.whole then some rules else none }
  | .error .nameTooLong => .error (.file path .nameTooLong)
  | .error _ => .ok { root }

/-- The index of the first group that has an ending of a file name. -/
def extensionGroup? (groups : List (List String)) (filename : String) : Option Nat :=
  groups.findIdx? fun endings => endings.any fun ending =>
    ending.toList.isSuffixOf filename.toList

/-- Names in the order of their code points. -/
def sortNames (names : List String) : List String := names.mergeSort fun a b => decide (a ≤ b)

namespace Directory

/-- The names of the files of a directory. -/
def fileNames : Directory → List String
  | empty => []
  | file name _ others => name :: others.fileNames
  | folder _ _ others => others.fileNames

end Directory

/-- A source found by a walk. -/
structure Source where
  /-- The index of its group of endings. -/
  group : Nat
  /-- The names that lead to it from the root of the codebase. -/
  names : List String
  deriving DecidableEq, Repr

/-- The path of a source from the root of the codebase. -/
def Source.path (source : Source) : String := Path.ofComponents source.names

/-- Which files and directories a walk passes over. -/
structure WalkFilter where
  /-- The group of a file name, if files of that name count. -/
  group? : String → Option Nat
  /-- Whether directories of a name are passed over. -/
  excludes : String → Bool
  /-- Whether the directory at a path can be followed. -/
  reaches : String → Bool
  /-- Whether a path is ignored; that of a directory ends with a slash. -/
  ignores : String → Bool

namespace WalkFilter

/-- The sources among the files of a directory, in the order of their names. -/
def sourcesIn (filter : WalkFilter) (here : List String) (directory : Directory) :
    List Source :=
  (sortNames directory.fileNames).filterMap fun name =>
    match filter.group? name with
    | some group =>
      let names := here ++ [name]
      if filter.ignores (Path.ofComponents names) then none else some ⟨group, names⟩
    | none => none

/-- Whether a walk enters a directory. -/
def enters (filter : WalkFilter) (names : List String) (name : String) : Bool :=
  let path := Path.ofComponents names
  !filter.excludes name && filter.reaches path && !filter.ignores (path ++ "/")

/-- Results for the directories of a directory, put in the order of the names. -/
def inNameOrder (results : List (String × List Source)) : List Source :=
  (results.mergeSort fun a b => decide (a.1 ≤ b.1)).flatMap (·.2)

/-- The sources below each directory that is an entry, with the name of the entry. -/
def below (filter : WalkFilter) : List String → Directory → List (String × List Source)
  | _, .empty => []
  | here, .file _ _ others => filter.below here others
  | here, .folder name entries others =>
    let names := here ++ [name]
    if filter.enters names name then
      (name, filter.sourcesIn names entries ++ inNameOrder (filter.below names entries)) ::
        filter.below here others
    else filter.below here others

/-- The sources in and below a directory, in the order of the walk. -/
def walk (filter : WalkFilter) (here : List String) (directory : Directory) : List Source :=
  filter.sourcesIn here directory ++ inNameOrder (filter.below here directory)

end WalkFilter

/-- The sources in groups, the first group first; within a group the order stays. -/
def byGroup (groups : Nat) (sources : List Source) : List Source :=
  (List.range groups).flatMap fun group => sources.filter (·.group == group)

/-- The sources of a codebase and how many of them are wanted. -/
structure Scan where
  /-- The paths of all sources, relative to the root. -/
  found : List String
  /-- How many are wanted. -/
  limit : Int
  deriving DecidableEq, Repr

namespace Scan

/-- Whether there are more sources than wanted. -/
def isCut (scan : Scan) : Bool := scan.limit < (scan.found.length : Int)

/-- The sources that are wanted. -/
def files (scan : Scan) : List String := takeUpTo scan.limit scan.found

end Scan

/-- The filter of a walk through the codebase at a root. -/
def walkFilter (scope : Scope) (root : String) (context : IgnoreContext) : WalkFilter where
  group? := extensionGroup? scope.extensionGroups
  excludes := scope.excludedFolders.contains
  reaches path := (Path.join root path).utf8ByteSize ≤ maxPathSize
  ignores := context.isIgnored

/-- All sources in and below the directory at a root, in the order in which they are listed. -/
def sourcesOf (scope : Scope) (root : String) (context : IgnoreContext) (directory : Directory) :
    List Source :=
  byGroup scope.extensionGroups.length ((walkFilter scope root context).walk [] directory)

/-- The sources of the codebase at a root; there are none if the root is not a directory. Only a
root with a NUL character cannot be asked for. -/
def scan (system : FileSystem) (scope : Scope) (root : String) (context : IgnoreContext) :
    Except FileFault Scan :=
  if hasNul root then .error .embeddedNul
  else
    let found := match system.entries? root with
      | some directory => (sourcesOf scope root context directory).map (·.path)
      | none => []
    .ok { found, limit := scope.maxFiles }

end TraceInquest
