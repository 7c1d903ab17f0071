import TraceInquest.Proofs.FileSystem.Entry

/-! # File systems with other bytes in their files

Where a file system keeps its names and only the bytes of its files change, each path denotes what
it did before, with the bytes changed.

* **`Directory.mapFiles`**, **`Node.mapFiles`**, **`FileSystem.mapFiles`** — the same tree with
  other bytes.
* **`FileSystem.get_mapFiles`**, **`entries?_mapFiles`**, **`readBytes_mapFiles`** — what paths
  denote in it.
* **`Directory.contents`** — the bytes of all files; **`mem_contents_of_readBytes`** what is read
  is among them. -/

namespace TraceInquest

/-! ## Directories -/

/-- The directory with the bytes of all files in and below it changed. -/
def Directory.mapFiles (change : List UInt8 → List UInt8) : Directory → Directory
  | empty => empty
  | file name bytes others => file name (change bytes) (others.mapFiles change)
  | folder name entries others =>
    folder name (entries.mapFiles change) (others.mapFiles change)

/-- The node with the bytes of all files in it changed. -/
def Node.mapFiles (change : List UInt8 → List UInt8) : Node → Node
  | file bytes => file (change bytes)
  | folder entries => folder (entries.mapFiles change)

namespace Directory

variable (change : List UInt8 → List UInt8) (directory : Directory)

@[simp] theorem names_mapFiles : (directory.mapFiles change).names = directory.names := by
  induction directory with
  | empty => rfl
  | file name bytes others ih => rw [mapFiles, names, ih, names]
  | folder name entries others _ ih => rw [mapFiles, names, ih, names]

@[simp] theorem fileNames_mapFiles :
    (directory.mapFiles change).fileNames = directory.fileNames := by
  induction directory with
  | empty => rfl
  | file name bytes others ih => rw [mapFiles, fileNames, ih, fileNames]
  | folder name entries others _ ih => rw [mapFiles, fileNames, ih, fileNames]

@[simp] theorem isProper_mapFiles :
    (directory.mapFiles change).isProper = directory.isProper := by
  induction directory with
  | empty => rfl
  | file name bytes others ih => rw [mapFiles, isProper, ih, names_mapFiles, isProper]
  | folder name entries others ih_entries ih =>
    rw [mapFiles, isProper, ih_entries, ih, names_mapFiles, isProper]

/-- The entry of a name is what it was, with the bytes changed. -/
theorem lookup_mapFiles (name : String) :
    (directory.mapFiles change).lookup name =
      (directory.lookup name).map (Node.mapFiles change) := by
  induction directory with
  | empty => rfl
  | file other bytes others ih =>
    rw [mapFiles, lookup, lookup, ih, apply_ite (Option.map (Node.mapFiles change))]
    rfl
  | folder other entries others _ ih =>
    rw [mapFiles, lookup, lookup, ih, apply_ite (Option.map (Node.mapFiles change))]
    rfl

/-- Names lead to what they led to, with the bytes changed. -/
theorem find?_mapFiles (path : List String) :
    (directory.mapFiles change).find? path =
      (directory.find? path).map (Node.mapFiles change) := by
  induction path generalizing directory with
  | nil => rfl
  | cons name rest ih =>
    rw [find?, find?, lookup_mapFiles]
    cases directory.lookup name with
    | none => rfl
    | some node =>
      cases node with
      | file bytes => cases rest <;> rfl
      | folder entries => exact ih entries

/-- The bytes of all files in and below a directory. -/
def contents : Directory → List (List UInt8)
  | empty => []
  | file _ bytes others => bytes :: others.contents
  | folder _ entries others => entries.contents ++ others.contents

/-- What is looked up is among what is in and below a directory. -/
theorem contents_subset_of_lookup {directory entries : Directory} {name : String}
    (found : directory.lookup name = some (.folder entries)) :
    entries.contents ⊆ directory.contents := by
  induction directory with
  | empty => cases found
  | file other bytes others ih =>
    rw [lookup] at found
    split at found
    · cases found
    · exact List.Subset.trans (ih found) (List.subset_cons_self bytes others.contents)
  | folder other inner others _ ih =>
    rw [lookup] at found
    split at found
    · obtain rfl : inner = entries := by simpa using found
      exact List.subset_append_left inner.contents others.contents
    · exact List.Subset.trans (ih found) (List.subset_append_right inner.contents others.contents)

theorem mem_contents_of_lookup {directory : Directory} {name : String} {bytes : List UInt8}
    (found : directory.lookup name = some (.file bytes)) : bytes ∈ directory.contents := by
  induction directory with
  | empty => cases found
  | file other here others ih =>
    rw [lookup] at found
    split at found
    · obtain rfl : here = bytes := by simpa using found
      exact List.mem_cons_self
    · exact List.mem_cons_of_mem here (ih found)
  | folder other inner others _ ih =>
    rw [lookup] at found
    split at found
    · cases found
    · exact List.mem_append_right inner.contents (ih found)

/-- The file that names lead to is one of those in and below a directory. -/
theorem mem_contents_of_find? {directory : Directory} {path : List String} {bytes : List UInt8}
    (found : directory.find? path = some (.file bytes)) : bytes ∈ directory.contents := by
  induction path generalizing directory with
  | nil => cases found
  | cons name rest ih =>
    by_cases more : rest = []
    · subst more
      rw [find?_singleton] at found
      exact mem_contents_of_lookup found
    · obtain ⟨entries, name_found, rest_found⟩ := (find?_cons more).mp found
      exact contents_subset_of_lookup name_found (ih rest_found)

end Directory

/-! ## File systems -/

namespace FileSystem

/-- The file system with the bytes of all files changed. -/
def mapFiles (change : List UInt8 → List UInt8) (system : FileSystem) : FileSystem where
  root := system.root.mapFiles change
  working := system.working
  proper := (Directory.isProper_mapFiles change system.root).trans system.proper

variable (change : List UInt8 → List UInt8) (system : FileSystem)

theorem node?_mapFiles (names : List String) :
    (system.mapFiles change).node? names = (system.node? names).map (Node.mapFiles change) :=
  Directory.find?_mapFiles change system.root names

theorem follow_mapFiles (names : List String) (component : String) :
    (system.mapFiles change).follow names component = system.follow names component := by
  rw [follow, follow, node?_mapFiles]
  cases system.node? names with
  | none => rfl
  | some node =>
    cases node with
    | file bytes => rfl
    | folder entries =>
      rw [Option.map_some, Node.mapFiles]
      simp only [Directory.lookup_mapFiles, Option.isSome_map]

/-- The names that a path stands for stay the same. -/
theorem resolve_mapFiles (path : String) :
    (system.mapFiles change).resolve path = system.resolve path := by
  have same : (system.mapFiles change).follow = system.follow :=
    funext fun names => funext fun component => follow_mapFiles change system names component
  rw [resolve, resolve, same]
  rfl

/-- A path denotes what it denoted, with the bytes changed. -/
theorem get_mapFiles (path : String) :
    (system.mapFiles change).get path = (system.get path).map (Node.mapFiles change) := by
  rw [get, get, resolve_mapFiles]
  cases system.resolve path with
  | error fault => rfl
  | ok names =>
    simp only [bind, Except.bind, node?_mapFiles]
    cases system.node? names <;> rfl

theorem entries?_mapFiles (path : String) :
    (system.mapFiles change).entries? path =
      (system.entries? path).map (Directory.mapFiles change) := by
  rw [entries?, entries?, get_mapFiles]
  cases system.get path with
  | error fault => rfl
  | ok node => cases node <;> rfl

theorem readBytes_mapFiles (path : String) :
    (system.mapFiles change).readBytes path = (system.readBytes path).map change := by
  rw [readBytes, readBytes, get_mapFiles]
  cases system.get path with
  | error fault => rfl
  | ok node => cases node <;> rfl

/-- The bytes that are read are those of a file of the tree. -/
theorem mem_contents_of_readBytes {path : String} {bytes : List UInt8}
    (read : system.readBytes path = .ok bytes) : bytes ∈ system.root.contents := by
  obtain ⟨names, -, found⟩ := get_eq_ok_iff.mp (readBytes_eq_ok_iff.mp read)
  exact Directory.mem_contents_of_find? found

end FileSystem

end TraceInquest
