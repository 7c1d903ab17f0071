import Mathlib.Data.Set.Card
import TraceInquest.Proofs.Codebase.WalkOrder
import TraceInquest.Proofs.FileSystem.Reading

/-! # Which files a scan lists

A scan lists a file if its name has a wanted ending, no directory on the way to it is excluded or
ignored, it is not ignored itself, and the path of every directory on the way, seen from the root,
is short enough to be followed. It lists every such file once.

* **`IsEligible`** — what names and ignore rules demand of a file.
* **`IsReachable`** — what the longest path demands of the directories on the way.
* **`scan_exact`** — the files that a scan lists.
* **`not_forall_scan_lists_eligible`** — names and ignore rules alone do not decide: behind a root
  that is spelled with many slashes an eligible file is passed over. -/

namespace TraceInquest

/-- What names and ignore rules demand of a file in some directories below a root: that there is
such a file, that its name has a wanted ending, that no directory is excluded or ignored, and that
the file is not ignored itself. -/
structure IsEligible (scope : Scope) (context : IgnoreContext) (directory : Directory)
    (folders : List String) (name : String) : Prop where
  isFile : ∃ bytes, directory.find? (folders ++ [name]) = some (.file bytes)
  hasEnding : ∃ group ∈ scope.extensionGroups, ∃ ending ∈ group, ending.toList <:+ name.toList
  notExcluded : ∀ folder ∈ folders, folder ∉ scope.excludedFolders
  foldersKept : ∀ above, above <+: folders → above ≠ [] →
    context.isIgnored (Path.ofComponents above ++ "/") = false
  kept : context.isIgnored (Path.ofComponents (folders ++ [name])) = false

/-- Whether directories that lie one in the other can be followed from a root, as far as the
longest path allows it. -/
def IsReachable (root : String) (folders : List String) : Prop :=
  ∀ above, above <+: folders → above ≠ [] →
    (Path.join root (Path.ofComponents above)).utf8ByteSize ≤ maxPathSize

/-- The paths of the eligible files of a directory. -/
def eligiblePaths (scope : Scope) (context : IgnoreContext) (directory : Directory) :
    Set String :=
  {path | ∃ folders name, path = Path.ofComponents (folders ++ [name]) ∧
    IsEligible scope context directory folders name}

/-- The paths of the eligible files of the directory at a root that can be reached. -/
def reachablePaths (scope : Scope) (root : String) (context : IgnoreContext)
    (directory : Directory) : Set String :=
  {path | ∃ folders name, path = Path.ofComponents (folders ++ [name]) ∧
    IsEligible scope context directory folders name ∧ IsReachable root folders}

/-! ## The sources of a directory -/

/-- A file name has a group exactly if it has an ending of some group. -/
theorem exists_extensionGroup?_iff {groups : List (List String)} {name : String} :
    (∃ group < groups.length, extensionGroup? groups name = some group) ↔
      ∃ group ∈ groups, ∃ ending ∈ group, ending.toList <:+ name.toList := by
  have found_iff : (extensionGroup? groups name).isSome = true ↔
      ∃ group ∈ groups, ∃ ending ∈ group, ending.toList <:+ name.toList := by
    simp [extensionGroup?]
  rw [← found_iff, Option.isSome_iff_exists]
  constructor
  · rintro ⟨group, -, found⟩
    exact ⟨group, found⟩
  · rintro ⟨group, found⟩
    exact ⟨group, (List.findIdx?_eq_some_iff_findIdx_eq.mp found).1, found⟩

section Sources

variable {scope : Scope} {root : String} {context : IgnoreContext} {directory : Directory}

/-- The sources of a proper directory are its eligible files that can be reached. -/
theorem mem_sourcesOf (proper : directory.isProper = true) {source : Source} :
    source ∈ sourcesOf scope root context directory ↔
      ∃ folders name, source.names = folders ++ [name] ∧
        extensionGroup? scope.extensionGroups name = some source.group ∧
        IsEligible scope context directory folders name ∧ IsReachable root folders := by
  simp only [sourcesOf, mem_byGroup, WalkFilter.mem_walk_iff proper, WalkFilter.entersAll_iff,
    List.nil_append]
  -- the filter of the walk is eligibility, condition by condition
  constructor
  · rintro ⟨⟨folders, name, isFile, group, ⟨excluded, reached, ignored⟩, kept, names⟩, there⟩
    refine ⟨folders, name, names, group, ?_, fun above initial nonempty => ?_⟩
    · exact {
        isFile
        hasEnding := exists_extensionGroup?_iff.mp ⟨source.group, there, group⟩
        notExcluded := fun folder mem => by simpa [walkFilter] using excluded folder mem
        foldersKept := ignored
        kept }
    · exact of_decide_eq_true (reached above initial nonempty)
  · rintro ⟨folders, name, names, group, eligible, reachable⟩
    refine ⟨⟨folders, name, eligible.isFile, group, ⟨?_, ?_, ?_⟩, eligible.kept, names⟩,
      (List.findIdx?_eq_some_iff_findIdx_eq.mp group).1⟩
    · intro folder mem
      simpa [walkFilter] using eligible.notExcluded folder mem
    · exact fun above initial nonempty => decide_eq_true (reachable above initial nonempty)
    · exact eligible.foldersKept

/-- The sources of a proper directory have the paths that can be reached. -/
theorem mem_map_path_sourcesOf (proper : directory.isProper = true) {path : String} :
    path ∈ (sourcesOf scope root context directory).map (·.path) ↔
      path ∈ reachablePaths scope root context directory := by
  simp only [List.mem_map, mem_sourcesOf proper]
  constructor
  · rintro ⟨source, ⟨folders, name, names, -, eligible, reachable⟩, rfl⟩
    exact ⟨folders, name, congrArg Path.ofComponents names, eligible, reachable⟩
  · rintro ⟨folders, name, rfl, eligible, reachable⟩
    obtain ⟨group, -, found⟩ := exists_extensionGroup?_iff.mpr eligible.hasEnding
    exact ⟨⟨group, folders ++ [name]⟩, ⟨folders, name, rfl, found, eligible, reachable⟩, rfl⟩

/-- The path of a source tells which source it is. -/
theorem eq_of_path_eq (proper : directory.isProper = true) {first second : Source}
    (first_mem : first ∈ sourcesOf scope root context directory)
    (second_mem : second ∈ sourcesOf scope root context directory)
    (same : first.path = second.path) : first = second := by
  obtain ⟨folders, name, names, group, ⟨⟨bytes, found⟩, -⟩, -⟩ := (mem_sourcesOf proper).mp first_mem
  obtain ⟨folders', name', names', group', ⟨⟨bytes', found'⟩, -⟩, -⟩ :=
    (mem_sourcesOf proper).mp second_mem
  have slashless {path : List String} {node : Node} (found : directory.find? path = some node) :
      ∀ name ∈ path, '/' ∉ name.toList :=
    fun name mem => not_mem_of_isValidName (Directory.isValidName_of_find? proper found name mem)
  have same_names : first.names = second.names := by
    rw [names, names']
    refine (Path.ofComponents_inj (by simp) (by simp) (slashless found) (slashless found')).mp ?_
    rw [← names, ← names']
    exact same
  -- the last name decides about the group
  have same_name : name = name' := by
    have lasts := congrArg List.getLast? (names.symm.trans (same_names.trans names'))
    simpa using lasts
  have same_group : first.group = second.group := by
    rw [same_name, group'] at group
    exact (Option.some.inj group).symm
  cases first
  cases second
  exact congr (congrArg Source.mk same_group) same_names

/-- The sources of a proper directory stand in strict order. -/
theorem pairwise_sourcesOf (proper : directory.isProper = true) :
    (sourcesOf scope root context directory).Pairwise Source.Before :=
  pairwise_byGroup (WalkFilter.pairwise_walk proper)

/-- The sources of a proper directory have different paths. -/
theorem nodup_map_path_sourcesOf (proper : directory.isProper = true) :
    ((sourcesOf scope root context directory).map (·.path)).Nodup := by
  refine List.Nodup.map_on ?_ (pairwise_sourcesOf proper).nodup
  exact fun first first_mem second second_mem => eq_of_path_eq proper first_mem second_mem

/-- There are as many sources as paths that can be reached. -/
theorem ncard_reachablePaths (proper : directory.isProper = true) :
    (reachablePaths scope root context directory).ncard =
      (sourcesOf scope root context directory).length := by
  have same : reachablePaths scope root context directory =
      (((sourcesOf scope root context directory).map (·.path)).toFinset : Set String) := by
    ext path
    rw [List.coe_toFinset, Set.mem_ofPred_eq, mem_map_path_sourcesOf proper]
  rw [same, Set.ncard_coe_finset, List.toFinset_card_of_nodup (nodup_map_path_sourcesOf proper),
    List.length_map]

end Sources

/-! ## The listing -/

section Listing

variable {system : FileSystem} {scope : Scope} {root : String} {context : IgnoreContext}
  {directory : Directory}

/-- A scan of a directory finds the paths of its sources. -/
theorem scan_of_entries? (isFolder : system.entries? root = some directory) :
    scan system scope root context = .ok
      { found := (sourcesOf scope root context directory).map (·.path)
        limit := scope.maxFiles } := by
  rw [scan, FileSystem.hasNul_of_entries? isFolder, isFolder]
  rfl

/-- If no more files are eligible and can be reached than are wanted, a scan lists exactly these,
each of them once. -/
theorem scan_exact (isFolder : system.entries? root = some directory)
    (enough : ((reachablePaths scope root context directory).ncard : Int) ≤ scope.maxFiles) :
    ∃ listing, scan system scope root context = .ok listing ∧ listing.files.Nodup ∧
      ∀ path, path ∈ listing.files ↔ path ∈ reachablePaths scope root context directory := by
  have proper := FileSystem.isProper_of_entries? isFolder
  refine ⟨_, scan_of_entries? isFolder, ?_⟩
  -- no more is found than is wanted, so the limit leaves nothing out
  have all : Scan.files
      { found := (sourcesOf scope root context directory).map (·.path)
        limit := scope.maxFiles } = (sourcesOf scope root context directory).map (·.path) := by
    rw [ncard_reachablePaths proper] at enough
    obtain ⟨limit, limit_eq⟩ := Int.eq_ofNat_of_zero_le (by omega : 0 ≤ scope.maxFiles)
    rw [limit_eq] at enough
    rw [Scan.files, limit_eq, takeUpTo_natCast, List.take_of_length_le]
    rw [List.length_map]
    exact Int.ofNat_le.mp enough
  rw [all]
  exact ⟨nodup_map_path_sourcesOf proper, fun path => mem_map_path_sourcesOf proper⟩

end Listing

/-! ## A codebase with ignore rules -/

/-- A codebase with an ignore file, an ignored and an excluded directory, and an ignored file. -/
def filteredCodebase : Directory :=
  .file ".gitignore" (Text.Utf8.encode "gen/\nold.rb\n")
    (.folder "gen" (.file "a.rb" [] .empty)
      (.folder "tmp" (.file "b.rb" [] .empty)
        (.folder "lib"
          (.file "c.rb" [] (.folder "sub"
            (.file "old.rb" [] (.folder "deep" (.file "d.rb" [] .empty) .empty)) .empty))
          .empty)))

/-- The file system with the filtered codebase in a directory of the working directory. -/
def filteredSystem : FileSystem where
  root := .folder "repo" filteredCodebase .empty
  working := []

/-- The rules of its ignore file. -/
def filteredContext : IgnoreContext where
  root := "repo"
  rules? := (parseRules ["gen/\n".toList, "old.rb\n".toList]).toOption

theorem loadIgnoreContext_filteredSystem :
    loadIgnoreContext filteredSystem "repo" = .ok filteredContext := by
  have path : ((Location.ofPath "repo").child ignoreFileName).text = "repo/.gitignore" := by decide
  have read : filteredSystem.readBytes "repo/.gitignore" =
      .ok (Text.Utf8.encode "gen/\nold.rb\n") := by
    decide +kernel
  have whole : (Text.readLines Text.blockSize (Text.Utf8.encode "gen/\nold.rb\n")).whole =
      true := by
    decide +kernel
  have lines : (Text.readLines Text.blockSize (Text.Utf8.encode "gen/\nold.rb\n")).lines =
      ["gen/\n".toList, "old.rb\n".toList] := by
    decide +kernel
  have parsed : (parseRules ["gen/\n".toList, "old.rb\n".toList]).isOk = true := by
    decide +kernel
  unfold loadIgnoreContext
  dsimp only
  rw [path, read]
  dsimp only
  rw [lines, whole, filteredContext]
  cases rules : parseRules ["gen/\n".toList, "old.rb\n".toList] with
  | error fault =>
    rw [rules] at parsed
    cases parsed
  | ok rules => rfl

/-- A walk through it enters three of the five directories and keeps two of the six files. -/
theorem walk_filteredCodebase :
    (walkFilter {} "repo" filteredContext).walk [] filteredCodebase =
      [⟨0, ["lib", "c.rb"]⟩, ⟨0, ["lib", "sub", "deep", "d.rb"]⟩] := by
  generalize passes : walkFilter {} "repo" filteredContext = filter
  have entered : filter.enters ["gen"] "gen" = false ∧ filter.enters ["tmp"] "tmp" = false ∧
      filter.enters ["lib"] "lib" = true ∧ filter.enters ["lib", "sub"] "sub" = true ∧
      filter.enters ["lib", "sub", "deep"] "deep" = true := by
    rw [← passes]
    decide +kernel
  have grouped : filter.group? ".gitignore" = none ∧ filter.group? "c.rb" = some 0 ∧
      filter.group? "old.rb" = some 0 ∧ filter.group? "d.rb" = some 0 := by
    rw [← passes]
    decide
  have kept : filter.ignores (Path.ofComponents ["lib", "c.rb"]) = false ∧
      filter.ignores (Path.ofComponents ["lib", "sub", "old.rb"]) = true ∧
      filter.ignores (Path.ofComponents ["lib", "sub", "deep", "d.rb"]) = false := by
    rw [← passes]
    decide +kernel
  simp [WalkFilter.walk, WalkFilter.sourcesIn, WalkFilter.below, WalkFilter.inNameOrder,
    filteredCodebase, Directory.fileNames, sortNames, entered, grouped, kept]

theorem scan_exact_filteredSystem :
    loadIgnoreContext filteredSystem "repo" = .ok filteredContext ∧
      filteredSystem.entries? "repo" = some filteredCodebase ∧
      ((reachablePaths {} "repo" filteredContext filteredCodebase).ncard : Int) ≤
        ({} : Scope).maxFiles ∧
      ∃ listing, scan filteredSystem {} "repo" filteredContext = .ok listing ∧
        listing.files.Nodup ∧ (∀ path, path ∈ listing.files ↔
          path ∈ reachablePaths {} "repo" filteredContext filteredCodebase) ∧
        listing.files = ["lib/c.rb", "lib/sub/deep/d.rb"] := by
  have isFolder : filteredSystem.entries? "repo" = some filteredCodebase := by decide
  have sources : sourcesOf {} "repo" filteredContext filteredCodebase =
      [⟨0, ["lib", "c.rb"]⟩, ⟨0, ["lib", "sub", "deep", "d.rb"]⟩] := by
    rw [sourcesOf, walk_filteredCodebase]
    rfl
  have enough : ((reachablePaths {} "repo" filteredContext filteredCodebase).ncard : Int) ≤
      ({} : Scope).maxFiles := by
    rw [ncard_reachablePaths (FileSystem.isProper_of_entries? isFolder), sources]
    decide
  obtain ⟨listing, scanned, once, exactly⟩ := scan_exact isFolder enough
  have files : listing.files = ["lib/c.rb", "lib/sub/deep/d.rb"] := by
    obtain rfl := Except.ok.inj (scanned.symm.trans (scan_of_entries? isFolder))
    rw [sources]
    decide
  exact ⟨loadIgnoreContext_filteredSystem, isFolder, enough, listing, scanned, once, exactly,
    files⟩

/-! ## A codebase with one file -/

/-- A codebase whose only file lies in a directory. -/
def nestedCodebase : Directory := .folder "sub" (.file "a.rb" [] .empty) .empty

/-- The file system with the nested codebase in a directory of the working directory. -/
def nestedSystem : FileSystem where
  root := .folder "repo" nestedCodebase .empty
  working := []

/-- The only eligible file of the nested codebase. -/
theorem eq_of_isEligible_nestedCodebase {scope : Scope} {context : IgnoreContext}
    {folders : List String} {name : String}
    (eligible : IsEligible scope context nestedCodebase folders name) :
    folders = ["sub"] ∧ name = "a.rb" := by
  obtain ⟨bytes, found⟩ := eligible.isFile
  obtain ⟨rest, names_eq, found⟩ := Directory.find?_folder_empty found
  have names_eq : folders ++ [name] = ["sub"] ++ ["a.rb"] := by
    rw [names_eq, Directory.find?_file_empty found]
    rfl
  obtain ⟨folders_eq, name_eq⟩ := List.append_inj' names_eq rfl
  exact ⟨folders_eq, List.singleton_inj.mp name_eq⟩

theorem isEligible_nestedCodebase :
    IsEligible {} { root := "repo" } nestedCodebase ["sub"] "a.rb" where
  isFile := ⟨[], by decide⟩
  hasEnding := ⟨[".rb", ".erb", ".rake"], by decide, ".rb", by decide, by decide⟩
  notExcluded := by decide
  foldersKept _ _ _ := rfl
  kept := rfl

theorem eligiblePaths_nestedCodebase_subset (scope : Scope) (context : IgnoreContext) :
    eligiblePaths scope context nestedCodebase ⊆ {"sub/a.rb"} := by
  rintro path ⟨folders, name, rfl, eligible⟩
  obtain ⟨rfl, rfl⟩ := eq_of_isEligible_nestedCodebase eligible
  decide

theorem entries?_nestedSystem_slashes :
    nestedSystem.entries? ("repo" ++ Path.slashes 4090) = some nestedCodebase :=
  FileSystem.entries?_append_slashes (by decide) (by decide) (by decide)

/-- Behind a root with so many slashes no directory below it can be followed, so nothing is
listed. -/
theorem scan_nestedSystem_slashes :
    scan nestedSystem {} ("repo" ++ Path.slashes 4090) { root := "repo" } =
      .ok { found := [], limit := 50 } := by
  suffices none_found : (sourcesOf {} ("repo" ++ Path.slashes 4090) { root := "repo" }
      nestedCodebase).map (·.path) = [] by
    rw [scan_of_entries? entries?_nestedSystem_slashes, none_found]
  refine List.eq_nil_iff_forall_not_mem.mpr fun path found => ?_
  rw [mem_map_path_sourcesOf (by decide)] at found
  obtain ⟨folders, name, -, eligible, reachable⟩ := found
  obtain ⟨rfl, rfl⟩ := eq_of_isEligible_nestedCodebase eligible
  have short := reachable ["sub"] List.prefix_rfl (by simp)
  have long := @Path.utf8ByteSize_le_join ("repo" ++ Path.slashes 4090) "sub" (by decide)
  rw [String.utf8ByteSize_append, Path.utf8ByteSize_slashes,
    show "repo".utf8ByteSize = 4 from rfl, show "sub".utf8ByteSize = 3 from rfl] at long
  rw [show Path.ofComponents ["sub"] = "sub" by decide, maxPathSize] at short
  omega

/-- Names and ignore rules alone do not decide what a scan lists: behind a root with so many
slashes that no directory below it can be followed, an eligible file is not listed. -/
theorem not_forall_scan_lists_eligible :
    ¬ ∀ (system : FileSystem) (scope : Scope) (root : String) (context : IgnoreContext)
      (directory : Directory), system.entries? root = some directory →
      ((eligiblePaths scope context directory).ncard : Int) ≤ scope.maxFiles →
      ∃ listing, scan system scope root context = .ok listing ∧ listing.files.Nodup ∧
        ∀ path, path ∈ listing.files ↔ path ∈ eligiblePaths scope context directory := by
  intro all
  have isFolder := entries?_nestedSystem_slashes
  have one := Set.ncard_le_ncard (eligiblePaths_nestedCodebase_subset {} { root := "repo" })
  rw [Set.ncard_singleton] at one
  have few : ((eligiblePaths {} { root := "repo" } nestedCodebase).ncard : Int) ≤ 50 := by
    omega
  obtain ⟨listing, scanned, -, listed⟩ := all nestedSystem {} _ _ nestedCodebase isFolder few
  have mem : "sub/a.rb" ∈ listing.files :=
    (listed "sub/a.rb").mpr ⟨["sub"], "a.rb", by decide, isEligible_nestedCodebase⟩
  rw [scan_nestedSystem_slashes, Except.ok.injEq] at scanned
  rw [← scanned] at mem
  exact List.not_mem_nil ((takeUpTo_isPrefix _ _).subset mem)

end TraceInquest
