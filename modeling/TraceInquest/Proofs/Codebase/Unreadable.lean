import TraceInquest.Proofs.Codebase.Analysis
import TraceInquest.Proofs.Codebase.ScanOrder
import TraceInquest.Proofs.FileSystem.Overwritten
import TraceInquest.Proofs.Text.Utf8

/-! # Files of a codebase that cannot be read

The sources of a codebase are listed before any of them is read, and each is analysed on its own. A
source that is no text, or whose path is too long to be followed, has no analysis; it takes its
place in the list all the same, and the analyses of the others do not change.

* **`sourceAnalysis?`** — the analysis of a source, if it can be read.
* **`codebaseOf`**, **`analyzeCodebase_eq_ok`** — the analyses of a codebase.
* **`IsFileBelow`** — where a source of a codebase lies.
* **`sourceAnalysis?_eq_none_iff`** — which sources have no analysis.
* **`scan_overwrites`**, **`sourceAnalysis?_overwrites`** — other bytes in one source.
* **`analyzeCodebase_skips`** — the analyses of a codebase with sources that cannot be read. -/

namespace TraceInquest

open Text.Utf8

variable {system before after : FileSystem} {scope : Scope} {root path : String}
  {context : IgnoreContext} {listing : Scan}

/-- Bytes can be read as a text exactly if they encode one. -/
theorem exists_textOfBytes_iff {bytes : List UInt8} :
    (∃ text, textOfBytes bytes = .ok text) ↔ IsUtf8 bytes := by
  simp only [textOfBytes, except_map_eq_ok, decode_eq_ok_iff]
  constructor
  · rintro ⟨text, chars, encodes, -⟩
    exact ⟨chars, encodes⟩
  · rintro ⟨chars, encodes⟩
    exact ⟨_, chars, encodes, rfl⟩

/-! ## Analyses -/

/-- The analysis of a source of the codebase at a root, if it can be read. -/
def sourceAnalysis? (system : FileSystem) (scope : Scope) (root path : String) :
    Option FileAnalysis :=
  (readSource? system (Path.join root path)).map fun content =>
    analyzeContent scope (Path.join root path) content none none

theorem analyzeFile_join (nulless : hasNul (Path.join root path) = false) :
    analyzeFile system scope (Path.join root path) none none =
      .ok (sourceAnalysis? system scope root path) := by
  rw [analyzeFile, nulless]
  rfl

theorem path_of_sourceAnalysis? {file : FileAnalysis}
    (analyzed : sourceAnalysis? system scope root path = some file) :
    file.path = Path.join root path := by
  obtain ⟨content, -, rfl⟩ := Option.map_eq_some_iff.mp analyzed
  rfl

/-- The analyses of the sources that a scan lists. -/
def codebaseOf (system : FileSystem) (scope : Scope) (root : String) (listing : Scan) :
    CodebaseAnalysis where
  scan := listing
  outcomes := listing.files.map fun path => (path, sourceAnalysis? system scope root path)

theorem analyses_codebaseOf :
    (codebaseOf system scope root listing).analyses =
      listing.files.filterMap (sourceAnalysis? system scope root) := by
  rw [CodebaseAnalysis.analyses, codebaseOf, List.filterMap_map]
  rfl

/-- If the sources of a codebase can be asked for, it has the analyses of those that can be read. -/
theorem analyzeSources_eq_ok (scanned : scan system scope root context = .ok listing)
    (nulless : ∀ path ∈ listing.files, hasNul (Path.join root path) = false) :
    analyzeSources system scope root context = .ok (codebaseOf system scope root listing) := by
  have done : ∀ path ∈ listing.files,
      (do
        let analysis ← (analyzeFile system scope (Path.join root path) none none).mapError
          (CodebaseFault.file (Path.join root path))
        return (path, analysis)) = .ok (path, sourceAnalysis? system scope root path) := by
    intro path mem
    rw [analyzeFile_join (nulless path mem)]
    rfl
  have listed : (scan system scope root context).mapError (CodebaseFault.file root) =
      .ok listing := by
    rw [scanned]
    rfl
  rw [analyzeSources, listed, except_ok_bind, except_mapM_eq_ok_map done]
  rfl

theorem analyzeCodebase_eq_ok (loaded : loadIgnoreContext system root = .ok context)
    (scanned : scan system scope root context = .ok listing)
    (nulless : ∀ path ∈ listing.files, hasNul (Path.join root path) = false) :
    analyzeCodebase system scope root = .ok (codebaseOf system scope root listing) := by
  rw [analyzeCodebase, loaded, except_ok_bind, analyzeSources_eq_ok scanned nulless]

/-! ## Where sources lie -/

/-- Whether a path, seen from a root, leads to a file, by names behind those of the directory at the
root. -/
structure IsFileBelow (system : FileSystem) (root path : String) (here names : List String)
    (bytes : List UInt8) : Prop where
  resolved : system.resolve root = .ok here
  isFolder : system.kind? here = some .folder
  path_eq : path = Path.ofComponents names
  isFile : system.node? (here ++ names) = some (.file bytes)

namespace IsFileBelow

variable {here names : List String} {bytes : List UInt8}
  (below : IsFileBelow system root path here names bytes)
include below

theorem exists_find? : ∃ entries, system.node? here = some (.folder entries) ∧
    entries.find? names = some (.file bytes) := by
  obtain ⟨entries, found⟩ := FileSystem.kind?_eq_folder_iff.mp below.isFolder
  exact ⟨entries, found, (FileSystem.node?_append found names).symm.trans below.isFile⟩

theorem valid : ∀ name ∈ names, isValidName name = true := by
  intro name mem
  exact Directory.isValidName_of_find? system.proper below.isFile name
    (List.mem_append_right here mem)

theorem slashless : ∀ name ∈ names, '/' ∉ name.toList :=
  fun name mem => not_mem_of_isValidName (below.valid name mem)

theorem nonempty : names ≠ [] := by
  rintro rfl
  obtain ⟨entries, -, found⟩ := below.exists_find?
  cases found

theorem relative : Path.isAbsolute path = false := by
  have plain := FileSystem.isPlain_of_isValidName below.valid
  rw [below.path_eq]
  exact (plain.relative below.nonempty).2

theorem hasNul_join : hasNul (Path.join root path) = false := by
  rw [below.path_eq]
  exact FileSystem.hasNul_join_ofComponents below.resolved below.valid

/-- Behind the same root, files of different names have different paths. -/
theorem join_inj {other : String} {there others : List String} {content : List UInt8}
    (other_below : IsFileBelow system root other there others content) :
    Path.join root path = Path.join root other ↔ names = others := by
  rw [Path.join_inj below.relative other_below.relative, below.path_eq, other_below.path_eq,
    Path.ofComponents_inj below.nonempty other_below.nonempty below.slashless
      other_below.slashless]

/-- The joined path leads to the file if it is not too long. -/
theorem resolve_join : system.resolve (Path.join root path) =
    if (Path.join root path).utf8ByteSize ≤ maxPathSize then .ok (here ++ names)
    else .error .nameTooLong := by
  obtain ⟨entries, found, isFile⟩ := below.exists_find?
  rw [below.path_eq]
  exact FileSystem.resolve_join_ofComponents below.resolved found isFile below.nonempty

theorem readBytes_join : system.readBytes (Path.join root path) =
    if (Path.join root path).utf8ByteSize ≤ maxPathSize then .ok bytes
    else .error .nameTooLong := by
  obtain ⟨entries, found, isFile⟩ := below.exists_find?
  rw [below.path_eq]
  exact FileSystem.readBytes_join_ofComponents below.resolved found isFile

end IsFileBelow

/-- A scan lists some of the sources of the directory at the root, or nothing if there is none. -/
theorem files_of_scan (scanned : scan system scope root context = .ok listing) :
    (∃ directory, system.entries? root = some directory ∧
      listing.files <+: (sourcesOf scope root context directory).map (·.path)) ∨
    listing.files = [] := by
  rw [scan] at scanned
  split at scanned
  · cases scanned
  · obtain rfl := Except.ok.inj scanned
    cases isFolder : system.entries? root with
    | none => exact .inr (List.prefix_nil.mp (takeUpTo_isPrefix _ []))
    | some directory => exact .inl ⟨directory, rfl, takeUpTo_isPrefix _ _⟩

/-- A scan that lists sources wants as many as its scope does. -/
theorem limit_of_scan {root : String} {context : IgnoreContext} {listing : Scan}
    (scanned : scan system scope root context = .ok listing) : listing.limit = scope.maxFiles := by
  unfold scan at scanned
  split at scanned
  · cases scanned
  · obtain rfl := Except.ok.inj scanned
    rfl

/-- The paths that a scan lists are those of files below the directory at the root. -/
theorem exists_isFileBelow (scanned : scan system scope root context = .ok listing)
    (mem : path ∈ listing.files) :
    (∃ directory, system.entries? root = some directory) ∧
      ∃ here names bytes, IsFileBelow system root path here names bytes := by
  rcases files_of_scan scanned with ⟨directory, isFolder, initial⟩ | nothing
  · have proper := FileSystem.isProper_of_entries? isFolder
    obtain ⟨folders, name, path_eq, ⟨⟨bytes, isFile⟩, -⟩, -⟩ :=
      (mem_map_path_sourcesOf proper).mp (initial.subset mem)
    obtain ⟨here, resolved, here_found⟩ :=
      FileSystem.get_eq_ok_iff.mp (FileSystem.entries?_eq_some_iff.mp isFolder)
    refine ⟨⟨directory, isFolder⟩, here, folders ++ [name], bytes, ?_⟩
    exact {
      resolved, path_eq
      isFolder := FileSystem.kind?_eq_folder_iff.mpr ⟨directory, here_found⟩
      isFile := (FileSystem.node?_append here_found _).trans isFile }
  · rw [nothing] at mem
    cases mem

theorem hasNul_of_mem_files (scanned : scan system scope root context = .ok listing) :
    ∀ path ∈ listing.files, hasNul (Path.join root path) = false := by
  intro path mem
  obtain ⟨-, here, names, bytes, below⟩ := exists_isFileBelow scanned mem
  exact below.hasNul_join

/-- No path is listed twice. -/
theorem nodup_files (scanned : scan system scope root context = .ok listing) :
    listing.files.Nodup := by
  rcases files_of_scan scanned with ⟨directory, isFolder, initial⟩ | nothing
  · have proper := FileSystem.isProper_of_entries? isFolder
    exact (nodup_map_path_sourcesOf proper).sublist initial.sublist
  · rw [nothing]
    exact List.nodup_nil

/-- Different sources have different paths. -/
theorem nodup_analyses (scanned : scan system scope root context = .ok listing) :
    ((listing.files.filterMap (sourceAnalysis? system scope root)).map (·.path)).Nodup := by
  rw [List.nodup_iff_pairwise_ne, List.pairwise_map, List.pairwise_filterMap]
  refine (nodup_files scanned).imp_of_mem fun {first second} first_mem second_mem different => ?_
  intro file analyzed other other_analyzed
  obtain ⟨-, _, _, _, below⟩ := exists_isFileBelow scanned first_mem
  obtain ⟨-, _, _, _, other_below⟩ := exists_isFileBelow scanned second_mem
  rw [path_of_sourceAnalysis? analyzed, path_of_sourceAnalysis? other_analyzed, Ne,
    Path.join_inj below.relative other_below.relative]
  exact different

/-! ## Sources that cannot be read -/

/-- A source has no analysis exactly if it is no text or its path is too long. -/
theorem sourceAnalysis?_eq_none_iff {here names : List String} {bytes : List UInt8}
    (below : IsFileBelow system root path here names bytes) :
    sourceAnalysis? system scope root path = none ↔
      ¬IsUtf8 bytes ∨ maxPathSize < (Path.join root path).utf8ByteSize := by
  rw [sourceAnalysis?, Option.map_eq_none_iff, ← not_iff_not, ← Ne, Option.ne_none_iff_exists']
  simp only [readSource?_eq_some_iff, FileSystem.readText_eq_ok_iff, below.readBytes_join, not_or,
    not_not, Nat.not_lt, ← exists_textOfBytes_iff]
  split
  · rename_i short
    simp [short]
  · rename_i long
    simp [long]

/-! ## Other bytes in one source -/

/-- The path of an ignore file leads to a file of that name. -/
theorem getLast?_of_resolve_ignoreFile {names : List String}
    (resolved : system.resolve ((Location.ofPath root).child ignoreFileName).text = .ok names) :
    names.getLast? = some ignoreFileName := by
  have valid : isValidName ignoreFileName = true := by decide
  have plain := (Location.isPlain_ofPath root).child valid
  rw [FileSystem.resolve_text plain (by simp [Location.child])
    (FileSystem.checkPath_of_resolve resolved), Location.child, List.foldlM_append,
    except_bind_eq_ok] at resolved
  obtain ⟨above, -, followed⟩ := resolved
  rw [List.foldlM_cons, except_bind_eq_ok] at followed
  obtain ⟨there, followed, ended⟩ := followed
  obtain rfl := Except.ok.inj ended
  obtain ⟨entries, -, ⟨is_dot, -⟩ | ⟨is_dots, -⟩ | ⟨-, -, rfl⟩⟩ :=
    FileSystem.exists_of_follow followed
  · exact absurd is_dot (by decide)
  · exact absurd is_dots (by decide)
  · exact List.getLast?_concat

section Overwritten

variable {target here names : List String} {bytes old : List UInt8}

/-- A scan lists files whatever they hold, as long as the ignore rules stay the same. -/
theorem scan_overwrites (overwrites : FileSystem.Overwrites before after target bytes)
    {directory : Directory} (isFolder : before.entries? root = some directory) :
    scan after scope root context = scan before scope root context := by
  obtain ⟨changed, changed_isFolder, same⟩ := overwrites.entries? isFolder
  rw [scan_of_entries? isFolder, scan_of_entries? changed_isFolder,
    sourcesOf_congr (FileSystem.isProper_of_entries? isFolder)
      (FileSystem.isProper_of_entries? changed_isFolder) same]

/-- The ignore rules stay the same if the file is not called like an ignore file. -/
theorem loadIgnoreContext_overwrites (overwrites : FileSystem.Overwrites before after target bytes)
    (other : target.getLast? ≠ some ignoreFileName) :
    loadIgnoreContext after root = loadIgnoreContext before root := by
  have elsewhere : before.resolve ((Location.ofPath root).child ignoreFileName).text ≠ .ok target :=
    fun resolved => other (getLast?_of_resolve_ignoreFile resolved)
  unfold loadIgnoreContext
  simp only [overwrites.readBytes_of_ne elsewhere]

/-- The file lies where it lay. -/
theorem IsFileBelow.overwritten (below : IsFileBelow before root path here names old)
    (overwrites : FileSystem.Overwrites before after (here ++ names) bytes) :
    IsFileBelow after root path here names bytes where
  resolved := (overwrites.resolve root).trans below.resolved
  isFolder := by
    rw [overwrites.kind, if_neg]
    · exact below.isFolder
    · exact fun same => below.nonempty (by simpa using same)
  path_eq := below.path_eq
  isFile := by rw [← FileSystem.kind?_eq_file_iff, overwrites.kind, if_pos rfl]

/-- If the bytes of a source become no text, it has no analysis any more, and those of the other
sources stay the same. -/
theorem sourceAnalysis?_overwrites (no_text : ¬IsUtf8 bytes)
    (overwrites : FileSystem.Overwrites before after (here ++ target) bytes)
    (below : IsFileBelow before root path here names old) :
    sourceAnalysis? after scope root path =
      if names = target then none else sourceAnalysis? before scope root path := by
  split
  · rename_i same
    subst same
    exact (sourceAnalysis?_eq_none_iff (below.overwritten overwrites)).mpr (.inl no_text)
  · rename_i different
    have elsewhere : before.resolve (Path.join root path) ≠ .ok (here ++ target) := by
      rw [below.resolve_join]
      split
      · simpa using different
      · simp
    rw [sourceAnalysis?, readSource?, overwrites.readText_of_ne elsewhere]
    rfl

end Overwritten

/-! ## Codebases -/

/-- If the bytes of a source become no text, the codebase loses the analysis of this source and
keeps all others in their order. -/
theorem analyzeCodebase_overwrites {here names : List String} {bytes old : List UInt8}
    (loaded : loadIgnoreContext before root = .ok context)
    (scanned : scan before scope root context = .ok listing) (mem : path ∈ listing.files)
    (below : IsFileBelow before root path here names old)
    (other_name : names.getLast? ≠ some ignoreFileName) (no_text : ¬IsUtf8 bytes)
    (overwrites : FileSystem.Overwrites before after (here ++ names) bytes) :
    ∃ changed, analyzeCodebase after scope root = .ok changed ∧ changed.scan = listing ∧
      changed.analyses = (listing.files.filterMap (sourceAnalysis? before scope root)).filter
        fun file => file.path ≠ Path.join root path := by
  obtain ⟨⟨directory, isFolder⟩, -⟩ := exists_isFileBelow scanned mem
  have last : (here ++ names).getLast? ≠ some ignoreFileName := by
    rwa [List.getLast?_append_of_ne_nil here below.nonempty]
  have after_loaded := (loadIgnoreContext_overwrites overwrites last).trans loaded
  have after_scanned := (scan_overwrites overwrites isFolder).trans scanned
  have nulless := hasNul_of_mem_files scanned
  refine ⟨_, analyzeCodebase_eq_ok after_loaded after_scanned nulless, rfl, ?_⟩
  -- the scan lists the same sources, so they are compared one by one
  rw [analyses_codebaseOf, List.filter_filterMap]
  refine List.filterMap_congr fun other other_mem => ?_
  obtain ⟨-, other_here, other_names, _, other_below⟩ := exists_isFileBelow scanned other_mem
  obtain rfl : other_here = here :=
    Except.ok.inj (other_below.resolved.symm.trans below.resolved)
  rw [sourceAnalysis?_overwrites no_text overwrites other_below]
  cases analyzed : sourceAnalysis? before scope root other with
  | none => exact ite_self none
  | some file =>
    have same_path : file.path = Path.join root path ↔ other_names = names := by
      rw [path_of_sourceAnalysis? analyzed, other_below.join_inj below]
    rw [Option.filter_some]
    by_cases same : other_names = names
    · simp [same, same_path.mpr same]
    · simp [same, mt same_path.mp same]

/-- The analyses of a codebase are those of its listed sources, in their order, apart from the sources
that are no texts and those whose path is too long to be followed. If the bytes of a source become no
text, the codebase loses its analysis and keeps all others. -/
theorem analyzeCodebase_skips (loaded : loadIgnoreContext system root = .ok context) :
    (∀ fault, scan system scope root context = .error fault →
      analyzeCodebase system scope root = .error (.file root fault)) ∧
    ∀ listing, scan system scope root context = .ok listing →
      ∃ codebase results, analyzeCodebase system scope root = .ok codebase ∧
        List.Forall₂ (fun path result =>
          analyzeFile system scope (Path.join root path) none none = .ok result)
          listing.files results ∧
        codebase.analyses = results.filterMap id ∧ (codebase.analyses.map (·.path)).Nodup ∧
        ∀ path ∈ listing.files, ∃ here names bytes, IsFileBelow system root path here names bytes ∧
          (analyzeFile system scope (Path.join root path) none none = .ok none ↔
            ¬IsUtf8 bytes ∨ maxPathSize < (Path.join root path).utf8ByteSize) ∧
          (names.getLast? ≠ some ignoreFileName → ∀ other, ¬IsUtf8 other →
            ∃ changed, analyzeCodebase (system.place (here ++ names) (.file other)) scope root =
                .ok changed ∧ changed.scan = listing ∧
              changed.analyses =
                codebase.analyses.filter fun file => file.path ≠ Path.join root path) := by
  constructor
  · intro fault failed
    rw [analyzeCodebase, loaded, except_ok_bind, analyzeSources, failed]
    rfl
  · intro listing scanned
    have nulless := hasNul_of_mem_files scanned
    refine ⟨_, listing.files.map (sourceAnalysis? system scope root),
      analyzeCodebase_eq_ok loaded scanned nulless, ?_, ?_, ?_, ?_⟩
    · rw [List.forall₂_map_right_iff, List.forall₂_same]
      exact fun path mem => analyzeFile_join (nulless path mem)
    · rw [analyses_codebaseOf, List.filterMap_map]
      rfl
    · rw [analyses_codebaseOf]
      exact nodup_analyses scanned
    · intro path mem
      obtain ⟨-, here, names, bytes, below⟩ := exists_isFileBelow scanned mem
      refine ⟨here, names, bytes, below, ?_, fun other_name other no_text => ?_⟩
      · rw [analyzeFile_join below.hasNul_join, Except.ok.injEq]
        exact sourceAnalysis?_eq_none_iff below
      · rw [analyses_codebaseOf]
        exact analyzeCodebase_overwrites loaded scanned mem below other_name no_text
          (FileSystem.overwrites_place below.isFile other)

/-- A codebase with one source. -/
def loneCodebase : Directory := .file "a.rb" [0x78, 0x0A] .empty

/-- The file system with that codebase in a directory of the working directory. -/
def loneSystem : FileSystem where
  root := .folder "repo" loneCodebase .empty
  working := []

theorem not_isUtf8_invalid : ¬IsUtf8 [0xFF] := by
  rintro ⟨text, encodes⟩
  have refused : decode [0xFF] = .error ⟨0xFF, 0, 1, .invalidStart⟩ := by decide
  rw [← decode_eq_ok_iff, refused] at encodes
  cases encodes

/-- What a scan of that codebase lists, however its root is spelled. -/
theorem scan_loneSystem (isFolder : loneSystem.entries? root = some loneCodebase) :
    scan loneSystem {} root { root } = .ok { found := ["a.rb"], limit := 50 } := by
  have group : extensionGroup? ({} : Scope).extensionGroups "a.rb" = some 0 := by decide
  have walked : (walkFilter {} root { root }).walk [] loneCodebase = [⟨0, ["a.rb"]⟩] := by
    simp [walkFilter, WalkFilter.walk, WalkFilter.sourcesIn, WalkFilter.below,
      WalkFilter.inNameOrder, loneCodebase, Directory.fileNames, sortNames, group,
      IgnoreContext.isIgnored]
  rw [scan_of_entries? isFolder, sourcesOf, walked]
  rfl

/-- A codebase without an ignore file has no ignore rules. -/
theorem loadIgnoreContext_of_missing (missing :
    system.readBytes ((Location.ofPath root).child ignoreFileName).text = .error .missing) :
    loadIgnoreContext system root = .ok { root } := by
  unfold loadIgnoreContext
  dsimp only
  rw [missing]

/-- That codebase has no ignore file, however its root is spelled. -/
theorem loadIgnoreContext_loneSystem (located : Location.ofPath root = ⟨"", ["repo"]⟩) :
    loadIgnoreContext loneSystem root = .ok { root } := by
  refine loadIgnoreContext_of_missing ?_
  rw [located]
  decide

/-- A source with more functions than a summary shows. -/
def functionsText : String :=
  "def a\ndef b\ndef c\ndef d\ndef e\ndef f\ndef g\ndef h\ndef i\ndef j\ndef k\n"

/-- A source with more imports than a summary shows. -/
def importsText : String := "import a\nimport b\nimport c\nimport d\nimport e\nimport f\n"

/-- A codebase with these two sources. -/
def pairCodebase : Directory :=
  .file "a.rb" (encode functionsText) (.file "b.rb" (encode importsText) .empty)

/-- The file system with that codebase in a directory of the working directory. -/
def pairSystem : FileSystem where
  root := .folder "repo" pairCodebase .empty
  working := []

theorem loadIgnoreContext_pairSystem :
    loadIgnoreContext pairSystem "repo" = .ok { root := "repo" } :=
  loadIgnoreContext_of_missing (by decide)

theorem scan_pairSystem :
    scan pairSystem {} "repo" { root := "repo" } =
      .ok { found := ["a.rb", "b.rb"], limit := 50 } := by
  have isFolder : pairSystem.entries? "repo" = some pairCodebase := by
    decide +kernel
  have walked : (walkFilter {} "repo" { root := "repo" }).walk [] pairCodebase =
      [⟨0, ["a.rb"]⟩, ⟨0, ["b.rb"]⟩] := by
    generalize passes : walkFilter {} "repo" { root := "repo" } = filter
    have grouped : filter.group? "a.rb" = some 0 ∧ filter.group? "b.rb" = some 0 := by
      rw [← passes]
      decide
    have kept : ∀ path, filter.ignores path = false := by
      rw [← passes]
      exact fun path => rfl
    have sorted : sortNames ["a.rb", "b.rb"] = ["a.rb", "b.rb"] :=
      List.mergeSort_of_pairwise (by decide)
    simp [WalkFilter.walk, WalkFilter.sourcesIn, WalkFilter.below, WalkFilter.inNameOrder,
      pairCodebase, Directory.fileNames, grouped, kept, sorted]
  rw [scan_of_entries? isFolder, sourcesOf, walked]
  rfl

theorem analyzeCodebase_skips_pairSystem :
    loadIgnoreContext pairSystem "repo" = .ok { root := "repo" } ∧
      ∃ codebase changed, analyzeCodebase pairSystem {} "repo" = .ok codebase ∧
        codebase.analyses.map (·.path) = ["repo/a.rb", "repo/b.rb"] ∧
        analyzeCodebase (pairSystem.place ["repo", "a.rb"] (.file [0xFF])) {} "repo" =
          .ok changed ∧
        changed.scan = codebase.scan ∧
        changed.analyses = (codebase.analyses.filter fun file => file.path ≠ "repo/a.rb") ∧
        changed.analyses.map (·.path) = ["repo/b.rb"] := by
  obtain ⟨codebase, results, analyzed, -, -, -, sources⟩ :=
    (analyzeCodebase_skips loadIgnoreContext_pairSystem).2 _ scan_pairSystem
  obtain ⟨here, names, bytes, below, -, isolated⟩ := sources "a.rb" (by decide)
  have here_eq : here = ["repo"] := Except.ok.inj (below.resolved.symm.trans (by decide))
  have names_eq : names = ["a.rb"] := by
    rw [← Path.components_ofComponents below.nonempty below.slashless, ← below.path_eq]
    decide
  subst here_eq names_eq
  obtain ⟨changed, changed_analyzed, same_scan, analyses⟩ :=
    isolated (by decide) _ not_isUtf8_invalid
  obtain rfl := Except.ok.inj (analyzed.symm.trans (analyzeCodebase_eq_ok
    loadIgnoreContext_pairSystem scan_pairSystem (hasNul_of_mem_files scan_pairSystem)))
  refine ⟨loadIgnoreContext_pairSystem, _, changed, analyzed, ?_, changed_analyzed, same_scan,
    analyses, ?_⟩
  · rw [analyses_codebaseOf]
    decide +kernel
  · rw [analyses, analyses_codebaseOf]
    decide +kernel

/-! ## Roots with many slashes -/

/-- Slashes behind the name of a root do not matter for where its ignore file is. -/
theorem ofPath_append_slashes (count : Nat) :
    Location.ofPath ("repo" ++ Path.slashes count) = ⟨"", ["repo"]⟩ := by
  have root_eq : Location.rootOf ("repo" ++ Path.slashes count) = "" := by
    rw [Location.rootOf, String.toList_append]
    rfl
  have parts_eq : Path.namingComponents ("repo" ++ Path.slashes count) = ["repo"] := by
    rw [Path.namingComponents, Path.components_append_slashes (by decide)]
    simp
  rw [Location.ofPath, root_eq, parts_eq]

theorem entries?_loneSystem_slashes :
    loneSystem.entries? ("repo" ++ Path.slashes 4090) = some loneCodebase :=
  FileSystem.entries?_append_slashes (by decide) (by decide) (by decide)

/-- Behind that many slashes the path of the source is too long to be followed. -/
theorem sourceAnalysis?_loneSystem_slashes :
    ∃ here, IsFileBelow loneSystem ("repo" ++ Path.slashes 4090) "a.rb" here ["a.rb"]
        [0x78, 0x0A] ∧
      sourceAnalysis? loneSystem {} ("repo" ++ Path.slashes 4090) "a.rb" = none := by
  obtain ⟨here, resolved, found⟩ := FileSystem.get_eq_ok_iff.mp
    (FileSystem.entries?_eq_some_iff.mp entries?_loneSystem_slashes)
  have below : IsFileBelow loneSystem ("repo" ++ Path.slashes 4090) "a.rb" here ["a.rb"]
      [0x78, 0x0A] := {
    resolved
    isFolder := FileSystem.kind?_eq_folder_iff.mpr ⟨loneCodebase, found⟩
    path_eq := by decide
    isFile := (FileSystem.node?_append found _).trans (by decide) }
  have size := @Path.utf8ByteSize_le_join ("repo" ++ Path.slashes 4090) "a.rb" below.relative
  rw [String.utf8ByteSize_append, Path.utf8ByteSize_slashes,
    show "repo".utf8ByteSize = 4 from rfl, show "a.rb".utf8ByteSize = 4 from rfl] at size
  refine ⟨here, below, (sourceAnalysis?_eq_none_iff below).mpr (.inr ?_)⟩
  rw [maxPathSize]
  omega

/-- Not only sources that are no texts are left out: behind a root with so many slashes that the path
of a source is too long to be followed, a source that is a text has no analysis. -/
theorem not_forall_texts_analyzed :
    ¬ ∀ (system : FileSystem) (scope : Scope) (root : String) (context : IgnoreContext)
      (listing : Scan), loadIgnoreContext system root = .ok context →
      scan system scope root context = .ok listing →
      ∃ codebase, analyzeCodebase system scope root = .ok codebase ∧
        ∀ path ∈ listing.files, ∀ here names bytes,
          IsFileBelow system root path here names bytes → IsUtf8 bytes →
            ∃ file ∈ codebase.analyses, file.path = Path.join root path := by
  intro all
  have scanned := scan_loneSystem entries?_loneSystem_slashes
  have loaded := loadIgnoreContext_loneSystem (ofPath_append_slashes 4090)
  obtain ⟨codebase, analyzed, texts⟩ := all _ _ _ _ _ loaded scanned
  obtain rfl := Except.ok.inj
    (analyzed.symm.trans (analyzeCodebase_eq_ok loaded scanned (hasNul_of_mem_files scanned)))
  obtain ⟨here, below, left_out⟩ := sourceAnalysis?_loneSystem_slashes
  have isText : IsUtf8 [0x78, 0x0A] := ⟨['x', '\n'], decode_eq_ok_iff.mp (by decide)⟩
  obtain ⟨file, mem, -⟩ := texts "a.rb" (by decide) _ _ _ below isText
  rw [analyses_codebaseOf, List.mem_filterMap] at mem
  obtain ⟨path, listed, analyzed⟩ := mem
  obtain rfl : path = "a.rb" := List.mem_singleton.mp listed
  rw [left_out] at analyzed
  cases analyzed

end TraceInquest
