import TraceInquest.Proofs.Codebase.ScanExact

/-! # In which order a scan lists files

A scan lists files by their groups of endings, the first group first, and within a group in the
order of the walk; of this list it gives the beginning, as far as the limit allows. So neither the
order in which entries stand in directories nor a higher limit changes what is listed first, and
no file of a later group takes the place of one of an earlier group.

* **`IsFirstGroup`** — the group by which a file is listed.
* **`reachableSources`**, **`eligibleSources`** — the files that count, with their groups.
* **`IsOrderedList`** — what it means to list files in order; there is one such list at most.
* **`scan_ordered`** — what a scan lists, and how that depends on its limit.
* **`not_forall_scan_orders_eligible`** — behind a root that is spelled with many slashes the list
  is not that of all eligible files. -/

namespace TraceInquest

/-! ## Groups of endings -/

/-- Whether a group is the first one with an ending of a file name. -/
structure IsFirstGroup (groups : List (List String)) (name : String) (group : Nat) : Prop where
  accepts : ∃ endings, groups[group]? = some endings ∧
    ∃ ending ∈ endings, ending.toList <:+ name.toList
  first : ∀ earlier < group, ∀ endings, groups[earlier]? = some endings →
    ∀ ending ∈ endings, ¬ending.toList <:+ name.toList

theorem extensionGroup?_eq_some_iff {groups : List (List String)} {name : String} {group : Nat} :
    extensionGroup? groups name = some group ↔ IsFirstGroup groups name group := by
  rw [extensionGroup?, List.findIdx?_eq_some_iff_getElem]
  constructor
  · rintro ⟨there, accepts, first⟩
    refine ⟨⟨groups[group], List.getElem?_eq_getElem there, by simpa using accepts⟩, ?_⟩
    intro earlier less endings found
    obtain ⟨-, rfl⟩ := List.getElem?_eq_some_iff.mp found
    simpa using first earlier less
  · rintro ⟨⟨endings, found, accepts⟩, first⟩
    obtain ⟨there, rfl⟩ := List.getElem?_eq_some_iff.mp found
    refine ⟨there, by simpa using accepts, fun earlier less => ?_⟩
    simpa using first earlier less _ (List.getElem?_eq_getElem (Nat.lt_trans less there))

/-! ## Ordered lists of files -/

/-- The eligible files of a directory, each with the first group that has an ending of its
name. -/
def eligibleSources (scope : Scope) (context : IgnoreContext) (directory : Directory) :
    Set Source :=
  {source | ∃ folders name, source.names = folders ++ [name] ∧
    IsFirstGroup scope.extensionGroups name source.group ∧
    IsEligible scope context directory folders name}

/-- The eligible files of the directory at a root that can be reached. -/
def reachableSources (scope : Scope) (root : String) (context : IgnoreContext)
    (directory : Directory) : Set Source :=
  {source | ∃ folders name, source.names = folders ++ [name] ∧
    IsFirstGroup scope.extensionGroups name source.group ∧
    IsEligible scope context directory folders name ∧ IsReachable root folders}

/-- Whether a list holds the given sources in strict order. -/
structure IsOrderedList (sources : Set Source) (ordered : List Source) : Prop where
  mem_iff : ∀ source, source ∈ ordered ↔ source ∈ sources
  pairwise : ordered.Pairwise Source.Before

/-- There is one ordered list of the given sources at most. -/
theorem IsOrderedList.unique {sources : Set Source} {ordered other : List Source}
    (is_ordered : IsOrderedList sources ordered) (other_ordered : IsOrderedList sources other) :
    other = ordered := by
  refine other_ordered.pairwise.eq_of_mem_iff is_ordered.pairwise fun source => ?_
  rw [other_ordered.mem_iff, is_ordered.mem_iff]

/-- Whether two directories have files at the same names, in whatever order their entries
stand. -/
def Directory.SameFiles (directory other : Directory) : Prop :=
  ∀ names, (∃ bytes, directory.find? names = some (.file bytes)) ↔
    ∃ bytes, other.find? names = some (.file bytes)

section Sources

variable {scope : Scope} {root : String} {context : IgnoreContext} {directory : Directory}

theorem isOrderedList_sourcesOf (proper : directory.isProper = true) :
    IsOrderedList (reachableSources scope root context directory)
      (sourcesOf scope root context directory) where
  mem_iff source := by
    rw [mem_sourcesOf proper]
    simp only [extensionGroup?_eq_some_iff]
    rfl
  pairwise := pairwise_sourcesOf proper

theorem isEligible_congr {other : Directory} (same : directory.SameFiles other)
    {folders : List String} {name : String} :
    IsEligible scope context directory folders name ↔
      IsEligible scope context other folders name := by
  constructor
  · exact fun eligible => { eligible with isFile := (same _).mp eligible.isFile }
  · exact fun eligible => { eligible with isFile := (same _).mpr eligible.isFile }

/-- The order in which entries stand in directories does not matter for the sources. -/
theorem sourcesOf_congr {other : Directory} (proper : directory.isProper = true)
    (other_proper : other.isProper = true) (same : directory.SameFiles other) :
    sourcesOf scope root context other = sourcesOf scope root context directory := by
  have same_sources : reachableSources scope root context other =
      reachableSources scope root context directory := by
    simp only [reachableSources, isEligible_congr same]
  have other_ordered : IsOrderedList (reachableSources scope root context other)
      (sourcesOf scope root context other) := isOrderedList_sourcesOf other_proper
  rw [same_sources] at other_ordered
  exact (isOrderedList_sourcesOf proper).unique other_ordered

end Sources

/-- What comes first in an ordered list holds, with a source of some group, all of the earlier
groups. -/
theorem mem_take_of_group_lt {ordered : List Source} (pairwise : ordered.Pairwise Source.Before)
    {limit : Nat} {source earlier : Source} (taken : source ∈ ordered.take limit)
    (mem : earlier ∈ ordered) (less : earlier.group < source.group) :
    earlier ∈ ordered.take limit := by
  rw [← List.take_append_drop limit ordered] at mem
  rcases List.mem_append.mp mem with mem | left
  · exact mem
  · exfalso
    have before := pairwise.rel_of_mem_take_of_mem_drop taken left
    rcases before with more | ⟨same, -⟩
    · exact Nat.lt_asymm less more
    · exact Nat.ne_of_lt less same.symm

/-! ## The listing -/

section Listing

variable {system : FileSystem} {scope : Scope} {root : String} {context : IgnoreContext}
  {directory : Directory}

/-- The files that a scan lists are the first of its sources. -/
theorem scan_files {limit : Nat} (isFolder : system.entries? root = some directory)
    (limited : scope.maxFiles = limit) :
    ∃ listing, scan system scope root context = .ok listing ∧
      listing.files = ((sourcesOf scope root context directory).map (·.path)).take limit := by
  refine ⟨_, scan_of_entries? isFolder, ?_⟩
  rw [Scan.files, limited, takeUpTo_natCast]

/-- A scan lists the first of the eligible files that can be reached, in the order of their groups
and of the walk. The order of the entries in directories does not matter, a higher limit adds
files at the end only, and a file of some group comes with all of the earlier groups. -/
theorem scan_ordered {limit : Nat} (isFolder : system.entries? root = some directory)
    (limited : scope.maxFiles = limit) :
    ∃ ordered listing,
      IsOrderedList (reachableSources scope root context directory) ordered ∧
      (∀ other, IsOrderedList (reachableSources scope root context directory) other →
        other = ordered) ∧
      scan system scope root context = .ok listing ∧
      listing.files = (ordered.map (·.path)).take limit ∧
      (∀ otherSystem otherDirectory, otherSystem.entries? root = some otherDirectory →
        directory.SameFiles otherDirectory →
          scan otherSystem scope root context = .ok listing) ∧
      (∀ higher : Nat, limit ≤ higher → ∃ longer,
        scan system { scope with maxFiles := higher } root context = .ok longer ∧
          listing.files <+: longer.files) ∧
      ∀ source ∈ reachableSources scope root context directory, source.path ∈ listing.files →
        ∀ earlier ∈ reachableSources scope root context directory,
          earlier.group < source.group → earlier.path ∈ listing.files := by
  have proper := FileSystem.isProper_of_entries? isFolder
  have is_ordered : IsOrderedList (reachableSources scope root context directory)
      (sourcesOf scope root context directory) := isOrderedList_sourcesOf proper
  obtain ⟨listing, scanned, files⟩ := @scan_files _ _ _ context _ _ isFolder limited
  refine ⟨_, listing, is_ordered, fun other => is_ordered.unique, scanned, files, ?_, ?_, ?_⟩
  · intro otherSystem otherDirectory other_isFolder same
    have other_proper := FileSystem.isProper_of_entries? other_isFolder
    rw [← scanned, scan_of_entries? isFolder, scan_of_entries? other_isFolder,
      sourcesOf_congr proper other_proper same]
  · intro higher le
    obtain ⟨longer, longer_scanned, longer_files⟩ :=
      @scan_files _ { scope with maxFiles := higher } _ context _ _ isFolder rfl
    refine ⟨longer, longer_scanned, ?_⟩
    rw [files, longer_files]
    exact List.take_prefix_take_left le
  · intro source source_mem listed earlier earlier_mem less
    rw [files, ← List.map_take, List.mem_map] at listed ⊢
    obtain ⟨same, taken, same_path⟩ := listed
    rw [← is_ordered.mem_iff] at source_mem earlier_mem
    obtain rfl := eq_of_path_eq proper (List.mem_of_mem_take taken) source_mem same_path
    exact ⟨earlier, mem_take_of_group_lt is_ordered.pairwise taken earlier_mem less, rfl⟩

end Listing

/-- A codebase with files of two groups whose entries do not stand in the order of their names. -/
def mixedCodebase : Directory :=
  .folder "lib" (.file "a.rb" [] .empty)
    (.file "a.js" [] (.file "b.js" [] (.file "z.rb" [] .empty)))

/-- The file system with the mixed codebase in a directory of the working directory. -/
def mixedSystem : FileSystem where
  root := .folder "repo" mixedCodebase .empty
  working := []

/-- The mixed codebase with its entries in another order. -/
def shuffledCodebase : Directory :=
  .file "b.js" [] (.file "z.rb" []
    (.folder "lib" (.file "a.rb" [] .empty) (.file "a.js" [] .empty)))

/-- The file system with the shuffled codebase in a directory of the working directory. -/
def shuffledSystem : FileSystem where
  root := .folder "repo" shuffledCodebase .empty
  working := []

theorem sameFiles_shuffledCodebase : mixedCodebase.SameFiles shuffledCodebase := by
  intro names
  cases names with
  | nil => simp [Directory.find?]
  | cons name rest =>
    have same : shuffledCodebase.lookup name = mixedCodebase.lookup name := by
      simp only [shuffledCodebase, mixedCodebase, Directory.lookup]
      -- a name is that of one entry at most, so the order of the questions does not matter
      grind
    rw [Directory.find?, Directory.find?, same]

theorem walk_mixedCodebase :
    (walkFilter { maxFiles := 3 } "repo" { root := "repo" }).walk [] mixedCodebase =
      [⟨1, ["a.js"]⟩, ⟨1, ["b.js"]⟩, ⟨0, ["z.rb"]⟩, ⟨0, ["lib", "a.rb"]⟩] := by
  generalize passes : walkFilter { maxFiles := 3 } "repo" { root := "repo" } = filter
  have entered : filter.enters ["lib"] "lib" = true := by
    rw [← passes]
    decide
  have grouped : filter.group? "a.js" = some 1 ∧ filter.group? "b.js" = some 1 ∧
      filter.group? "z.rb" = some 0 ∧ filter.group? "a.rb" = some 0 := by
    rw [← passes]
    decide
  have kept : ∀ path, filter.ignores path = false := by
    rw [← passes]
    exact fun path => rfl
  have sorted : sortNames ["a.js", "b.js", "z.rb"] = ["a.js", "b.js", "z.rb"] ∧
      sortNames ["a.rb"] = ["a.rb"] :=
    ⟨List.mergeSort_of_pairwise (by decide), List.mergeSort_singleton _⟩
  simp [WalkFilter.walk, WalkFilter.sourcesIn, WalkFilter.below, WalkFilter.inNameOrder,
    mixedCodebase, Directory.fileNames, sorted, entered, grouped, kept]

theorem sourcesOf_mixedCodebase :
    sourcesOf { maxFiles := 3 } "repo" { root := "repo" } mixedCodebase =
      [⟨0, ["z.rb"]⟩, ⟨0, ["lib", "a.rb"]⟩, ⟨1, ["a.js"]⟩, ⟨1, ["b.js"]⟩] := by
  rw [sourcesOf, walk_mixedCodebase]
  rfl

theorem scan_ordered_mixedSystem :
    mixedSystem.entries? "repo" = some mixedCodebase ∧
      ({ maxFiles := 3 } : Scope).maxFiles = (3 : Nat) ∧
      ∃ ordered listing,
        IsOrderedList (reachableSources { maxFiles := 3 } "repo" { root := "repo" } mixedCodebase)
          ordered ∧
        ordered.map (·.path) = ["z.rb", "lib/a.rb", "a.js", "b.js"] ∧
        scan mixedSystem { maxFiles := 3 } "repo" { root := "repo" } = .ok listing ∧
        listing.files = ["z.rb", "lib/a.rb", "a.js"] ∧
        scan shuffledSystem { maxFiles := 3 } "repo" { root := "repo" } = .ok listing ∧
        (∃ longer, scan mixedSystem { maxFiles := 4 } "repo" { root := "repo" } = .ok longer ∧
          listing.files <+: longer.files) ∧
        ∀ earlier ∈ reachableSources { maxFiles := 3 } "repo" { root := "repo" } mixedCodebase,
          earlier.group < 1 → earlier.path ∈ listing.files := by
  have isFolder : mixedSystem.entries? "repo" = some mixedCodebase := by decide
  have limited : ({ maxFiles := 3 } : Scope).maxFiles = (3 : Nat) := rfl
  obtain ⟨ordered, listing, is_ordered, unique, scanned, files, shuffled, higher, priority⟩ :=
    @scan_ordered _ _ _ { root := "repo" } _ _ isFolder limited
  obtain rfl := unique _ (isOrderedList_sourcesOf (FileSystem.isProper_of_entries? isFolder))
  rw [sourcesOf_mixedCodebase] at is_ordered files
  have last : ⟨1, ["a.js"]⟩ ∈
      reachableSources { maxFiles := 3 } "repo" { root := "repo" } mixedCodebase :=
    (is_ordered.mem_iff _).mp (by decide)
  have listed : listing.files = ["z.rb", "lib/a.rb", "a.js"] := by
    rw [files]
    decide
  refine ⟨isFolder, limited, _, listing, is_ordered, by decide, scanned, listed, ?_, ?_, ?_⟩
  · exact shuffled shuffledSystem shuffledCodebase (by decide) sameFiles_shuffledCodebase
  · exact higher 4 (by decide)
  · refine priority _ last ?_
    rw [listed]
    decide

/-! ## Roots with many slashes -/

/-- The eligible files of the nested codebase in order. -/
theorem isOrderedList_nestedCodebase :
    IsOrderedList (eligibleSources {} { root := "repo" } nestedCodebase)
      [⟨0, ["sub", "a.rb"]⟩] where
  mem_iff source := by
    have first : IsFirstGroup ({} : Scope).extensionGroups "a.rb" 0 :=
      extensionGroup?_eq_some_iff.mp (by decide)
    rw [List.mem_singleton]
    constructor
    · rintro rfl
      exact ⟨["sub"], "a.rb", rfl, first, isEligible_nestedCodebase⟩
    · rintro ⟨folders, name, names, group, eligible⟩
      obtain ⟨rfl, rfl⟩ := eq_of_isEligible_nestedCodebase eligible
      rw [← extensionGroup?_eq_some_iff] at first group
      obtain ⟨source_group, source_names⟩ := source
      rw [first] at group
      exact congr (congrArg Source.mk (Option.some.inj group).symm) names
  pairwise := List.pairwise_singleton _ _

/-- The list of which a scan gives the beginning is not that of all eligible files: behind a root
with so many slashes that no directory below it can be followed, one of them is left out. -/
theorem not_forall_scan_orders_eligible :
    ¬ ∀ (system : FileSystem) (scope : Scope) (root : String) (context : IgnoreContext)
      (directory : Directory) (limit : Nat), system.entries? root = some directory →
      scope.maxFiles = limit →
      ∃ ordered listing, IsOrderedList (eligibleSources scope context directory) ordered ∧
        scan system scope root context = .ok listing ∧
        listing.files = (ordered.map (·.path)).take limit := by
  intro all
  obtain ⟨ordered, listing, is_ordered, scanned, files⟩ :=
    all nestedSystem {} _ { root := "repo" } nestedCodebase 50 entries?_nestedSystem_slashes rfl
  obtain rfl := isOrderedList_nestedCodebase.unique is_ordered
  rw [scan_nestedSystem_slashes, Except.ok.injEq] at scanned
  rw [← scanned] at files
  exact absurd files (by decide)

end TraceInquest
