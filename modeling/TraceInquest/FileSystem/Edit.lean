import TraceInquest.FileSystem.Basic

/-! # Changing a file system

* **`FileSystem.makeFolder location`** — makes one directory.
* **`FileSystem.makeFolders location`** — makes a directory and those on the way to it that are
  missing; one that exists already will do. What could be made stays when the rest cannot.
* **`FileSystem.writeFile path bytes`** — writes a file into an existing directory.
* **`FileSystem.place`**, **`FileSystem.remove`** — set and clear what names lead to. -/

namespace TraceInquest.FileSystem

/-- Puts a node where names lead to from the root; directories on the way are made. Nothing
changes if a name is not valid. -/
def place (system : FileSystem) (names : List String) (node : Node) : FileSystem :=
  if valid : names.all isValidName = true ∧ node.isProper = true then
    { system with
      root := system.root.put node names
      proper := Directory.isProper_put valid.2 valid.1 system.proper }
  else system

/-- Removes what names lead to from the root, if there is something. -/
def remove (system : FileSystem) (names : List String) : FileSystem :=
  { system with
    root := system.root.remove names
    proper := Directory.isProper_remove system.proper }

/-- The names that lead to an entry, which may not exist yet, of an existing directory. -/
def resolveEntry (system : FileSystem) (root : String) (folder : List String) (name : String) :
    Except FileFault (List String × Option Node) := do
  let names ← folder.foldlM system.follow (if root.isEmpty then system.working else [])
  match system.node? names with
  | none => .error .missing
  | some (.file _) => .error .notDirectory
  | some (.folder entries) =>
    if maxNameSize < name.utf8ByteSize then .error .nameTooLong
    else .ok (names ++ [name], entries.lookup name)

/-- Makes the directory at a location, whose parent must exist. -/
def makeFolder (system : FileSystem) (location : Location) : Except FileFault FileSystem := do
  checkPath location.text
  match location.parts.getLast? with
  | none => .error .exists
  | some name => do
    let (names, node) ← system.resolveEntry location.root location.parts.dropLast name
    if name = ".." ∨ node.isSome then .error .exists
    else .ok (system.place names (.folder .empty))

/-- Makes the directory at a location unless there is one. -/
def ensureFolder (system : FileSystem) (location : Location) : Except FileFault FileSystem :=
  match system.makeFolder location with
  | .error .missing => .error .missing
  | .error .embeddedNul => .error .embeddedNul
  | .error fault => if system.isFolder location.text then .ok system else .error fault
  | .ok changed => .ok changed

/-- What is left behind when directories were to be made. -/
structure Made where
  /-- The file system, with the directories that could be made. -/
  system : FileSystem
  /-- What went wrong and where, if not all directories are there. -/
  fault? : Option (FileFault × Location) := none

/-- Makes one directory, if it is missing, behind others that were to be made. -/
def Made.ensure (made : Made) (location : Location) : Made :=
  match made.fault? with
  | some _ => made
  | none =>
    match made.system.ensureFolder location with
    | .ok changed => { system := changed }
    | .error fault => { made with fault? := some (fault, location) }

/-- Makes the directory at the location with some components, whose last one comes first here,
and those on the way to it. -/
def makeFoldersFrom (root : String) : List String → FileSystem → Made
  | [], system => Made.ensure { system } ⟨root, []⟩
  | name :: above, system =>
    let location : Location := ⟨root, (name :: above).reverse⟩
    match system.ensureFolder location with
    | .error .missing => (makeFoldersFrom root above system).ensure location
    | _ => Made.ensure { system } location

/-- Makes the directory at a location and those on the way to it, as far as they are missing. -/
def makeFolders (system : FileSystem) (location : Location) : Made :=
  makeFoldersFrom location.root location.parts.reverse system

/-- Writes a file at a location whose parent exists, in place of a file that is there. -/
def writeFile (system : FileSystem) (location : Location) (bytes : List UInt8) :
    Except FileFault FileSystem := do
  checkPath location.text
  match location.parts.getLast? with
  | none => .error .isDirectory
  | some name => do
    let (names, node) ← system.resolveEntry location.root location.parts.dropLast name
    match node with
    | some (.folder _) => .error .isDirectory
    | _ => if name = ".." then .error .isDirectory else .ok (system.place names (.file bytes))

end TraceInquest.FileSystem
