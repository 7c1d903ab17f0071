import TraceInquest.Proofs.Codebase.Analysis
import TraceInquest.Proofs.Codebase.ScanOrder
import TraceInquest.Proofs.FileSystem.Entry
import TraceInquest.Proofs.Trace.Lines

/-! # Files of frames among the sources of a codebase

The file of a frame is looked for behind the root of the codebase as it is spelled, and a scan
walks through the directory at the root. A file that is found for a frame is one of the sources,
if its name has a wanted ending and no ignore rule speaks against it. Only the empty root means
the working directory where files are looked for, and nothing where they are listed.

* **`Path.normal`** — a path below the root of a codebase as a scan lists it.
* **`exists_entries?_of_join`** — the directory of a file lies below the directory at the root.
* **`mem_reachablePaths_of_fileIn?`** — a file in one of the directories where the files of frames
  are looked for can be listed.
* **`mem_scan_of_locate`** — what is found for a frame is listed.
* **`not_forall_mem_scan_of_locate`** — behind the empty root it is not. -/

namespace TraceInquest

/-! ## Paths in their shortest form -/

/-- A path below some directory, without empty components and dots. -/
def Path.normal (path : String) : String := Path.ofComponents (Path.absolute [] path)

/-- A valid name is the only component of itself. -/
theorem namingComponents_of_isValidName {name : String} (valid : isValidName name = true) :
    Path.namingComponents name = [name] := by
  rw [Path.namingComponents_of_not_mem (not_mem_of_isValidName valid)]
  simp only [isValidName, Bool.and_eq_true, bne_iff_ne] at valid
  rw [if_neg (by simp [valid.1.1.1.1, valid.1.1.1.2])]

/-- The path of a file in a directory that is no path either. -/
theorem Path.normal_join {folder name : String} (slashless : '/' ∉ folder.toList)
    (downwards : folder ≠ "..") (valid : isValidName name = true) :
    Path.normal (Path.join folder name) =
      Path.ofComponents (Path.namingComponents folder ++ [name]) := by
  have name_downwards : name ≠ ".." := by
    rintro rfl
    exact absurd valid (by decide)
  have all_downwards : ".." ∉ Path.namingComponents folder ++ [name] := by
    rw [Path.namingComponents_of_not_mem slashless]
    split <;> simp [Ne.symm downwards, Ne.symm name_downwards]
  rw [Path.normal, Path.absolute, ite_self,
    Path.namingComponents_join (Path.isAbsolute_of_not_mem (not_mem_of_isValidName valid)),
    namingComponents_of_isValidName valid, Path.foldl_stepInto all_downwards, List.nil_append]

/-! ## Directories below a root -/

namespace FileSystem

variable {system : FileSystem} {root folder : String} {names : List String}

/-- A component that does not lead upwards leads to a directory below. -/
theorem exists_find?_of_follow {component : String} (slashless : '/' ∉ component.toList)
    (downwards : component ≠ "..") {there : List String} {entries : Directory}
    (followed : system.follow names component = .ok there)
    (isFolder : system.node? there = some (.folder entries)) :
    ∃ directory, system.node? names = some (.folder directory) ∧
      directory.find? (Path.namingComponents component) = some (.folder entries) := by
  rw [Path.namingComponents_of_not_mem slashless]
  obtain ⟨directory, found, ⟨is_dot, rfl⟩ | ⟨is_dots, -⟩ | ⟨not_dot, -, rfl⟩⟩ :=
    exists_of_follow followed
  · rw [if_pos is_dot]
    exact ⟨directory, found, found.symm.trans isFolder⟩
  · exact absurd is_dots downwards
  · rw [node?_append_singleton found] at isFolder
    rw [if_neg not_dot]
    exact ⟨directory, found, (directory.find?_singleton component).trans isFolder⟩

/-- A directory at a root joined with a name lies below the directory at the root. -/
theorem exists_entries?_of_join (named : root ≠ "") (slashless : '/' ∉ folder.toList)
    (downwards : folder ≠ "..") {entries : Directory}
    (isFolder : system.entries? (Path.join root folder) = some entries) :
    ∃ directory, system.entries? root = some directory ∧
      directory.find? (Path.namingComponents folder) = some (.folder entries) := by
  obtain ⟨there, resolved, found⟩ := get_eq_ok_iff.mp (entries?_eq_some_iff.mp isFolder)
  have nonempty := Path.join_ne_empty (Path.isAbsolute_of_not_mem slashless) named
  rw [resolve_join slashless (checkPath_of_resolve resolved) nonempty] at resolved
  obtain ⟨here, root_resolved, followed⟩ := except_bind_eq_ok.mp resolved
  rw [folderPath, if_neg (by simpa using named)] at root_resolved
  obtain ⟨directory, root_found, below⟩ :=
    exists_find?_of_follow slashless downwards followed found
  refine ⟨directory, ?_, below⟩
  exact entries?_eq_some_iff.mpr (get_eq_ok_iff.mpr ⟨here, root_resolved, root_found⟩)

end FileSystem

/-! ## Files of frames -/

variable {system : FileSystem} {scope : Scope} {root folder name : String}
  {context : IgnoreContext}

/-- A file that is found in a directory below a root, where files of frames are looked for, is an
eligible file of the directory at the root that can be reached. -/
theorem mem_reachablePaths_of_fileIn? (named : root ≠ "") (slashless : '/' ∉ folder.toList)
    (downwards : folder ≠ "..") (entered : folder ∉ scope.excludedFolders)
    {bytes : List UInt8} (found : system.fileIn? (Path.join root folder) name = some bytes)
    (checked : checkPath (Path.join (Path.join root folder) name) = .ok ())
    (hasEnding : ∃ group ∈ scope.extensionGroups, ∃ ending ∈ group,
      ending.toList <:+ name.toList)
    (folder_kept : folder ≠ "" → context.isIgnored (folder ++ "/") = false)
    (kept : context.isIgnored (Path.normal (Path.join folder name)) = false) :
    ∃ directory, system.entries? root = some directory ∧
      Path.normal (Path.join folder name) ∈ reachablePaths scope root context directory := by
  have valid := FileSystem.isValidName_of_fileIn? found
  have name_relative := Path.isAbsolute_of_not_mem (not_mem_of_isValidName valid)
  have nonempty := Path.join_ne_empty (Path.isAbsolute_of_not_mem slashless) named
  obtain ⟨entries, isFolder, isFile⟩ := FileSystem.fileIn?_eq_some_iff.mp found
  rw [FileSystem.folderAt?, FileSystem.folderPath, if_neg (by simpa using nonempty)] at isFolder
  obtain ⟨directory, root_found, below⟩ :=
    FileSystem.exists_entries?_of_join named slashless downwards isFolder
  have normal_eq := Path.normal_join slashless downwards valid
  -- the folder is one component or none, so nothing but the folder leads to the file
  have one_folder {above : List String} (initial : above <+: Path.namingComponents folder)
      (nonempty : above ≠ []) : folder ≠ "" ∧ Path.ofComponents above = folder := by
    obtain ⟨not_empty, rfl⟩ := Path.eq_of_prefix_namingComponents slashless initial nonempty
    exact ⟨not_empty, String.intercalate_singleton⟩
  refine ⟨directory, root_found, Path.namingComponents folder, name, normal_eq, ?_, ?_⟩
  · exact {
      isFile := ⟨bytes, Directory.find?_append_singleton.mpr ⟨entries, below, isFile⟩⟩
      hasEnding
      notExcluded := by
        intro other mem
        rw [Path.namingComponents_of_not_mem slashless] at mem
        split at mem
        · cases mem
        · rwa [List.mem_singleton.mp mem]
      foldersKept := by
        intro above initial nonempty
        obtain ⟨not_empty, above_eq⟩ := one_folder initial nonempty
        rw [above_eq]
        exact folder_kept not_empty
      kept := by rwa [← normal_eq] }
  · -- the path of the file is longer than that of its directory, and can be followed
    intro above initial nonempty
    have short := (FileSystem.checkPath_eq_ok_iff.mp checked).2
    have size := @Path.utf8ByteSize_le_join (Path.join root folder) name name_relative
    rw [(one_folder initial nonempty).2]
    omega

/-- What is found for a frame of a trace below a root that is not empty is listed, if its name has
a wanted ending, no ignore rule speaks against it or the directory it is in, and all sources are
wanted. -/
theorem mem_scan_of_locate {trace content : String} {limit : Int} {frames : List Frame}
    {frame : Frame} (named : root ≠ "") (parsed : parseTrace TraceRule.all trace = .ok frames)
    (mem : frame ∈ frames) (listed : folder ∈ ({} : Scope).resolutionPrefixes)
    (located : locate system { maxFiles := limit } root frame.filename =
      some (Path.join (Path.join root folder) frame.filename, content))
    (hasEnding : ∃ group ∈ ({} : Scope).extensionGroups, ∃ ending ∈ group,
      ending.toList <:+ frame.filename.toList)
    (folder_kept : folder ≠ "" → context.isIgnored (folder ++ "/") = false)
    (kept : context.isIgnored (Path.normal (Path.join folder frame.filename)) = false)
    (enough : ∀ directory, system.entries? root = some directory →
      ((reachablePaths { maxFiles := limit } root context directory).ncard : Int) ≤ limit) :
    ∃ listing, scan system { maxFiles := limit } root context = .ok listing ∧
      Path.normal (Path.join folder frame.filename) ∈ listing.files := by
  have slashless : '/' ∉ frame.filename.toList :=
    fun slash => absurd (not_isSeparator_of_parseTrace parsed mem _ slash) (by decide)
  have folder_plain : '/' ∉ folder.toList ∧ folder ≠ ".." ∧
      folder ∉ ({} : Scope).excludedFolders := by
    have one_of_three : folder = "" ∨ folder = "src" ∨ folder = "app" := by simpa using listed
    rcases one_of_three with rfl | rfl | rfl <;> decide
  obtain ⟨folder_slashless, downwards, entered⟩ := folder_plain
  -- what is found is a file of that name in the directory at the root joined with the folder
  obtain ⟨bytes, read, -⟩ :=
    FileSystem.readText_eq_ok_iff.mp (mem_candidates_of_locate located).2
  obtain ⟨checked, found⟩ := (FileSystem.readBytes_join_eq_ok_iff slashless).mp read
  obtain ⟨directory, isFolder, reachable⟩ :=
    @mem_reachablePaths_of_fileIn? _ { maxFiles := limit } _ _ _ context named folder_slashless
      downwards entered _ found checked hasEnding folder_kept kept
  -- no more is found than is wanted, so the limit leaves nothing out
  have few := enough directory isFolder
  obtain ⟨count, rfl⟩ := Int.eq_ofNat_of_zero_le (by omega : 0 ≤ limit)
  obtain ⟨listing, scanned, files⟩ :=
    @scan_files _ { maxFiles := (count : Int) } _ context _ _ isFolder rfl
  have proper := FileSystem.isProper_of_entries? isFolder
  rw [ncard_reachablePaths proper] at few
  refine ⟨listing, scanned, ?_⟩
  rw [files, List.take_of_length_le (by rw [List.length_map]; exact Int.ofNat_le.mp few)]
  exact (mem_map_path_sourcesOf proper).mpr reachable

theorem exists_ending_ruby : ∃ group ∈ ({} : Scope).extensionGroups, ∃ ending ∈ group,
    ending.toList <:+ "a.rb".toList :=
  ⟨[".rb", ".erb", ".rake"], by decide, ".rb", by decide, by decide⟩

/-- A codebase whose only file lies in a directory where the files of frames are looked for. -/
def srcCodebase : Directory := .folder "src" (.file "a.rb" [0x78] .empty) .empty

/-- The file system with that codebase in a directory of the working directory. -/
def srcSystem : FileSystem where
  root := .folder "repo" srcCodebase .empty
  working := []

theorem reachablePaths_srcCodebase_subset (scope : Scope) (root : String)
    (context : IgnoreContext) : reachablePaths scope root context srcCodebase ⊆ {"src/a.rb"} := by
  rintro path ⟨folders, name, rfl, eligible, -⟩
  obtain ⟨bytes, found⟩ := eligible.isFile
  obtain ⟨rest, names_eq, found⟩ := Directory.find?_folder_empty found
  rw [names_eq, Directory.find?_file_empty found]
  decide

theorem mem_scan_of_locate_srcSystem :
    parseTrace TraceRule.all "lib/a.rb:1" = .ok [{ filename := "a.rb", line := 1 }] ∧
      locate srcSystem {} "repo" "a.rb" = some ("repo/src/a.rb", "x") ∧
      ((reachablePaths {} "repo" { root := "repo" } srcCodebase).ncard : Int) ≤ 50 ∧
      ∃ listing, scan srcSystem {} "repo" { root := "repo" } = .ok listing ∧
        "src/a.rb" ∈ listing.files := by
  have parsed : parseTrace TraceRule.all "lib/a.rb:1" =
      .ok [{ filename := "a.rb", line := 1 }] := by
    decide
  have located : locate srcSystem {} "repo" "a.rb" = some ("repo/src/a.rb", "x") := by decide
  have isFolder : srcSystem.entries? "repo" = some srcCodebase := by decide
  have few : ((reachablePaths {} "repo" { root := "repo" } srcCodebase).ncard : Int) ≤ 50 := by
    have one := Set.ncard_le_ncard
      (reachablePaths_srcCodebase_subset {} "repo" { root := "repo" })
    rw [Set.ncard_singleton] at one
    omega
  have enough (directory : Directory) (found : srcSystem.entries? "repo" = some directory) :
      ((reachablePaths {} "repo" { root := "repo" } directory).ncard : Int) ≤ 50 := by
    rw [isFolder, Option.some.injEq] at found
    rwa [← found]
  refine ⟨parsed, located, few, ?_⟩
  exact @mem_scan_of_locate _ _ "src" { root := "repo" } _ _ 50 _ _ (by decide) parsed
    List.mem_cons_self (by decide) located exists_ending_ruby (fun _ => rfl) rfl enough

/-! ## The empty root -/

/-- A file system with a file in the working directory. -/
def looseSystem : FileSystem where
  root := .file "a.rb" [0x78] .empty
  working := []

theorem eligiblePaths_looseSystem_subset (scope : Scope) (context : IgnoreContext) :
    eligiblePaths scope context looseSystem.root ⊆ {"a.rb"} := by
  rintro path ⟨folders, name, rfl, eligible⟩
  obtain ⟨bytes, found⟩ := eligible.isFile
  rw [Directory.find?_file_empty found]
  decide

/-- What is found for frames is not always listed: the empty root is accepted as the working
directory, whose ignore file is read and where files of frames are found, but nothing is listed. -/
theorem not_forall_mem_scan_of_locate :
    ¬ ∀ (system : FileSystem) (root folder trace content : String) (limit : Int)
      (context : IgnoreContext) (directory : Directory) (frames : List Frame) (frame : Frame),
      system.entries? (Location.ofPath root).text = some directory →
      loadIgnoreContext system root = .ok context →
      ((eligiblePaths { maxFiles := limit } context directory).ncard : Int) ≤ limit →
      parseTrace TraceRule.all trace = .ok frames → frame ∈ frames →
      folder ∈ ({} : Scope).resolutionPrefixes →
      locate system { maxFiles := limit } root frame.filename =
        some (Path.join (Path.join root folder) frame.filename, content) →
      (∃ group ∈ ({} : Scope).extensionGroups, ∃ ending ∈ group,
        ending.toList <:+ frame.filename.toList) →
      (folder ≠ "" → context.isIgnored (folder ++ "/") = false) →
      context.isIgnored (Path.normal (Path.join folder frame.filename)) = false →
      ∃ listing, scan system { maxFiles := limit } root context = .ok listing ∧
        Path.normal (Path.join folder frame.filename) ∈ listing.files := by
  intro all
  have parsed : parseTrace TraceRule.all "a.rb:1" = .ok [{ filename := "a.rb", line := 1 }] := by
    decide
  have located : locate looseSystem {} "" "a.rb" = some ("a.rb", "x") := by decide
  have few := Set.ncard_le_ncard (eligiblePaths_looseSystem_subset {} { root := "" })
  rw [Set.ncard_singleton] at few
  obtain ⟨listing, scanned, mem⟩ := all looseSystem "" "" "a.rb:1" "x" 50 { root := "" }
    looseSystem.root _ _ (by decide) rfl (by omega) parsed List.mem_cons_self (by decide) located
    exists_ending_ruby (fun _ => rfl) rfl
  have nothing : scan looseSystem {} "" { root := "" } = .ok { found := [], limit := 50 } := by
    decide
  rw [nothing, Except.ok.injEq] at scanned
  rw [← scanned] at mem
  exact List.not_mem_nil mem

end TraceInquest
