import TraceInquest.Proofs.Report.CodebaseSections
import TraceInquest.Proofs.Report.ShortList
import TraceInquest.Proofs.Source.Names
import TraceInquest.Proofs.Text.ReadBack

/-! # The lines of the report on a codebase

The report on a codebase has a section for each source that can be read, in the order of the scan.
As long as no name in the file system holds a line feed, the sections stand apart from each other,
and what they show of a source can be read back.

* **`sourceLines`**, **`reportSources_eq`** — the lines of a section, and of the report.
* **`contentLines_reportSources`** — cutting the report at line feeds gives its lines back.
* **`IsSection`** — what the lines of a section say of a file.
* **`reportCodebase_sections`** — the report has such a section for each analysis. -/

namespace TraceInquest

variable {system : FileSystem} {scope : Scope} {root path : String} {context : IgnoreContext}
  {listing : Scan} {codebase : CodebaseAnalysis}

/-! ## The lines -/

/-- The line that lists some items under a title, if there are any. -/
def listingLines (title : String) (limit : Nat) (items : List String) : List String :=
  if items.isEmpty then [] else ["- **" ++ title ++ ":** " ++ shortList limit items]

/-- The lines of the section of a file that is shown under a name. -/
def fileLines (shown : String) (file : FileAnalysis) : List String :=
  ["### 📄 `" ++ shown ++ "`", "", "- **Lines:** " ++ toString file.lineCount] ++
    listingLines "Functions" maxListedFunctions file.functions ++
    listingLines "Key Imports" maxListedImports file.imports ++ [""]

/-- The lines of the section of a source with a given text. -/
def sourceLines (source : String × String) : List String :=
  fileLines source.1 (analyzeContent {} source.1 source.2 none none)

/-- The lines of the report on sources with given texts. -/
def codebaseLines (sources : List (String × String)) : List String :=
  ["## 📁 Codebase Summary", ""] ++ (sources.map sourceLines).flatten

/-! ## The report is made of them -/

theorem listingLine_eq (title : String) (limit : Nat) (items : List String) :
    listingLine title limit items = Text.ofLines (listingLines title limit items) := by
  rw [listingLine, listingLines]
  split
  · rfl
  · rw [Text.ofLines_cons, Text.ofLines_nil, String.append_empty]

theorem reportFile_eq (shown : String) (file : FileAnalysis) :
    reportFile shown file = Text.ofLines (fileLines shown file) := by
  have breaks : "`\n\n" = "`" ++ "\n" ++ "\n" := rfl
  unfold reportFile
  simp only [fileLines, listingLine_eq, breaks, Text.ofLines_append, Text.ofLines_cons,
    Text.ofLines_nil, String.append_assoc, String.append_empty, String.empty_append]

/-- The report on sources is made of its lines. -/
theorem reportSources_eq {sources : List (String × String)} (nonempty : sources ≠ []) :
    reportSources sources = Text.ofLines (codebaseLines sources) := by
  have sections : sources.map reportSource = (sources.map sourceLines).map Text.ofLines := by
    rw [List.map_map]
    exact List.map_congr_left fun source _ => reportFile_eq _ _
  have heading : Text.ofLines ["## 📁 Codebase Summary", ""] = "## 📁 Codebase Summary\n\n" := by
    decide
  rw [reportSources, if_neg (by simpa using nonempty), sections, codebaseLines,
    Text.ofLines_append, Text.ofLines_flatten, heading]

/-! ## Nothing shown holds a line feed -/

theorem isLine_of_mem_listingLines {title : String} {limit : Nat} {items : List String}
    (title_line : Text.IsLine title) (lines : ∀ item ∈ items, Text.IsLine item) :
    ∀ line ∈ listingLines title limit items, Text.IsLine line := by
  have shown := @isLine_shortList limit items lines
  rw [listingLines]
  split
  · simp
  · simp +decide [title_line, shown]

/-- The section of a source under a name that is a line is made of lines. -/
theorem isLine_of_mem_sourceLines {source : String × String} (shown : Text.IsLine source.1) :
    ∀ line ∈ sourceLines source, Text.IsLine line := by
  have heading : ∀ line ∈ ["### 📄 `" ++ source.1 ++ "`", "",
      "- **Lines:** " ++ toString (analyzeContent {} source.1 source.2 none none).lineCount],
      Text.IsLine line := by
    simp +decide [shown]
  have functions := @isLine_of_mem_listingLines "Functions" maxListedFunctions
    (extractFunctions source.2) (by decide) fun item => isLine_of_mem_namesIn
  have imports := @isLine_of_mem_listingLines "Key Imports" maxListedImports
    (extractImports source.2) (by decide) fun item => isLine_of_mem_namesIn
  exact List.forall_mem_append.mpr ⟨List.forall_mem_append.mpr
    ⟨List.forall_mem_append.mpr ⟨heading, functions⟩, imports⟩, by decide⟩

/-- Cutting the report at line feeds gives its lines back, and an empty one behind the last. -/
theorem contentLines_reportSources {sources : List (String × String)} (nonempty : sources ≠ [])
    (shown : ∀ source ∈ sources, Text.IsLine source.1) :
    Text.contentLines (reportSources sources) = codebaseLines sources ++ [""] := by
  rw [reportSources_eq nonempty]
  refine Text.contentLines_ofLines (List.forall_mem_append.mpr ⟨by decide, fun line mem => ?_⟩)
  obtain ⟨lines, lines_mem, mem⟩ := List.mem_flatten.mp mem
  obtain ⟨source, source_mem, rfl⟩ := List.mem_map.mp lines_mem
  exact isLine_of_mem_sourceLines (shown source source_mem) line mem

/-! ## Names in a file system -/

/-- Whether no name of a file or directory holds a line feed. -/
def FileSystem.NamesAreLines (system : FileSystem) : Prop :=
  ∀ name ∈ system.root.allNames, Text.IsLine name

instance : Decidable system.NamesAreLines :=
  inferInstanceAs (Decidable (∀ name ∈ system.root.allNames, Text.IsLine name))

/-- Whether no file holds a line feed in its name, or in that of a directory on the way to it. -/
def FileSystem.FileNamesAreLines (system : FileSystem) : Prop :=
  ∀ names bytes, system.node? names = some (.file bytes) → ∀ name ∈ names, Text.IsLine name

theorem FileSystem.NamesAreLines.fileNames (names_lines : system.NamesAreLines) :
    system.FileNamesAreLines :=
  fun _ _ isFile name mem => names_lines name (Directory.mem_allNames_of_find? isFile name mem)

/-- The paths that a scan lists are lines then. -/
theorem isLine_of_mem_files (lines : system.FileNamesAreLines)
    (scanned : scan system scope root context = .ok listing) (mem : path ∈ listing.files) :
    Text.IsLine path := by
  obtain ⟨-, here, names, bytes, below⟩ := exists_isFileBelow scanned mem
  rw [below.path_eq]
  intro broken
  rcases Path.eq_or_mem_of_mem_ofComponents broken with slash | ⟨name, name_mem, in_name⟩
  · exact absurd slash (by decide)
  · exact lines _ _ below.isFile name (List.mem_append_right here name_mem) in_name

theorem isLine_of_mem_sourceTexts (lines : system.FileNamesAreLines)
    (scanned : scan system scope root context = .ok listing) :
    ∀ source ∈ sourceTexts system root listing.files, Text.IsLine source.1 := by
  intro source mem
  obtain ⟨path, listed, read⟩ := List.mem_filterMap.mp mem
  obtain ⟨content, -, rfl⟩ := Option.map_eq_some_iff.mp read
  exact isLine_of_mem_files lines scanned listed

/-! ## Sections -/

/-- Whether a line, or none, shows the first functions of a file, which can be read back from
it together with whether there are more. -/
structure ShowsFunctions (functions : List String) (line? : Option String) : Prop where
  absent_iff : line? = none ↔ functions = []
  shown : ∀ line, line? = some line → ∃ text, line = "- **Functions:** " ++ text ∧
    readShortList text = (functions.take 10, decide (10 < functions.length))

/-- Whether a line, or none, shows the first imports of a file. -/
structure ShowsImports (imports : List String) (line? : Option String) : Prop where
  absent_iff : line? = none ↔ imports = []
  shown : ∀ line, line? = some line → line = "- **Key Imports:** " ++
    String.intercalate ", " (imports.take 5) ++ if 5 < imports.length then "..." else ""

/-- Whether a file is analysed at a path below a root, and some lines are the section on it. -/
structure IsSection (system : FileSystem) (root path : String) (file : FileAnalysis)
    (lines : List String) : Prop where
  path_eq : file.path = Path.join root path
  way_back : Path.relative? system.working file.path root = some path
  content_read : readSource? system file.path = some file.content
  functions_eq : file.functions = extractFunctions file.content
  imports_eq : file.imports = extractImports file.content
  lineCount_eq : file.lineCount = 1 + file.content.toList.count '\n'
  lines_eq : ∃ functions? imports?, ShowsFunctions file.functions functions? ∧
    ShowsImports file.imports imports? ∧
    lines = ["### 📄 `" ++ path ++ "`", "", "- **Lines:** " ++ toString file.lineCount] ++
      functions?.toList ++ imports?.toList ++ [""]

/-- The functions of a file can be read back: no name holds a comma or a full stop. -/
theorem exists_showsFunctions (content : String) :
    ∃ line?, ShowsFunctions (extractFunctions content) line? ∧
      listingLines "Functions" maxListedFunctions (extractFunctions content) = line?.toList := by
  by_cases none : extractFunctions content = []
  · exact ⟨Option.none, ⟨by simp [none], by simp⟩, by rw [listingLines, none]; rfl⟩
  · -- what is shown can be read back, as neither separator nor dots occur in a name
    refine ⟨some ("- **Functions:** " ++ shortList maxListedFunctions (extractFunctions content)),
      ⟨by simp [none], fun line same => ⟨_, (Option.some_inj.mp same).symm, ?_⟩⟩, ?_⟩
    · refine readShortList_shortList (by decide) none fun name mem => ?_
      have chars := (isFunctionName_of_mem_extractFunctions mem).isNameChar
      exact ⟨fun comma => absurd (chars _ comma) (by decide),
        fun stop => absurd (chars _ stop) (by decide)⟩
    · rw [listingLines, if_neg (by simpa using none)]
      rfl

theorem exists_showsImports (imports : List String) :
    ∃ line?, ShowsImports imports line? ∧
      listingLines "Key Imports" maxListedImports imports = line?.toList := by
  by_cases none : imports = []
  · exact ⟨Option.none, ⟨by simp [none], by simp⟩, by rw [listingLines, none]; rfl⟩
  · refine ⟨some ("- **Key Imports:** " ++ shortList maxListedImports imports),
      ⟨by simp [none], fun line same => ?_⟩, ?_⟩
    · rw [← Option.some_inj.mp same, shortList, ← String.append_assoc]
      rfl
    · rw [listingLines, if_neg (by simpa using none)]
      rfl

/-- The section of a source that a scan lists and that can be read. -/
theorem isSection_sourceLines (named : root ≠ "")
    (scanned : scan system scope root context = .ok listing) (listed : path ∈ listing.files)
    {content : String} (read : readSource? system (Path.join root path) = some content) :
    IsSection system root path (analyzeContent scope (Path.join root path) content none none)
      (sourceLines (path, content)) := by
  obtain ⟨-, here, names, bytes, below⟩ := exists_isFileBelow scanned listed
  obtain ⟨functions?, functions_shown, functions_eq⟩ := exists_showsFunctions content
  obtain ⟨imports?, imports_shown, imports_eq⟩ := exists_showsImports (extractImports content)
  exact {
    path_eq := rfl
    way_back := below.relative?_join system.working named
    content_read := read
    functions_eq := rfl
    imports_eq := rfl
    lineCount_eq := by
      change ((Text.contentLines content).length : Int) = 1 + (content.toList.count '\n' : Int)
      rw [Text.length_contentLines]
      omega
    lines_eq := by
      refine ⟨functions?, imports?, functions_shown, imports_shown, ?_⟩
      rw [← functions_eq, ← imports_eq]
      rfl }

/-! ## Reports -/

/-- The analyses of a codebase with the paths that the scan gave their files. -/
def CodebaseAnalysis.analyzed (codebase : CodebaseAnalysis) : List (String × FileAnalysis) :=
  codebase.outcomes.filterMap fun (path, file?) => file?.map fun file => (path, file)

theorem analyzed_codebaseOf :
    (codebaseOf system scope root listing).analyzed =
      (sourceTexts system root listing.files).map fun source =>
        (source.1, analyzeContent scope (Path.join root source.1) source.2 none none) := by
  rw [CodebaseAnalysis.analyzed, codebaseOf, sourceTexts, List.filterMap_map, List.map_filterMap]
  refine List.filterMap_congr fun path _ => ?_
  simp only [Function.comp, sourceAnalysis?, Option.map_map, Function.comp_def]

/-- The analyses of a codebase are those of the sources that a scan by its ignore rules lists. -/
theorem exists_scan_of_analyzeCodebase
    (ended : analyzeCodebase system scope root = .ok codebase) :
    ∃ context listing, loadIgnoreContext system root = .ok context ∧
      scan system scope root context = .ok listing ∧
      codebase = codebaseOf system scope root listing := by
  obtain ⟨context, loaded, rest⟩ := except_bind_eq_ok.mp ended
  obtain ⟨listing, listed, -⟩ := except_bind_eq_ok.mp rest
  have scanned := except_mapError_eq_ok.mp listed
  have analyzed := analyzeCodebase_eq_ok loaded scanned (hasNul_of_mem_files scanned)
  exact ⟨context, listing, loaded, scanned, Except.ok.inj (ended.symm.trans analyzed)⟩

/-- Below its heading, the report on a codebase has one section for each analysis, in the order of
the scan, and these sections are all that can be read in it. -/
theorem reportCodebase_sections (named : root ≠ "") (names_lines : system.NamesAreLines)
    (ended : analyzeCodebase system scope root = .ok codebase)
    (nonempty : codebase.analyses ≠ []) :
    ∃ context report sections, loadIgnoreContext system root = .ok context ∧
      scan system scope root context = .ok codebase.scan ∧
      codebase.outcomes.map (·.1) = codebase.scan.files ∧
      codebase.analyses = codebase.analyzed.map (·.2) ∧
      reportCodebase system.working root codebase.analyses = some report ∧
      Text.contentLines report = ["## 📁 Codebase Summary", ""] ++ sections.flatten ++ [""] ∧
      List.Forall₂ (fun entry lines => IsSection system root entry.1 entry.2 lines)
        codebase.analyzed sections := by
  obtain ⟨context, listing, loaded, scanned, rfl⟩ := exists_scan_of_analyzeCodebase ended
  have texts_nonempty : sourceTexts system root listing.files ≠ [] := by
    rw [analyses_codebaseOf_eq_map, Ne, List.map_eq_nil_iff] at nonempty
    exact nonempty
  refine ⟨context, _, (sourceTexts system root listing.files).map sourceLines, loaded, scanned,
    ?_, ?_, reportCodebase_codebaseOf system.working named scanned, ?_, ?_⟩
  · simp [codebaseOf, Function.comp_def]
  · rw [analyses_codebaseOf_eq_map, analyzed_codebaseOf, List.map_map]
    rfl
  · exact contentLines_reportSources texts_nonempty
      (isLine_of_mem_sourceTexts names_lines.fileNames scanned)
  · rw [analyzed_codebaseOf, List.forall₂_map_left_iff, List.forall₂_map_right_iff,
      List.forall₂_same]
    intro source mem
    obtain ⟨path, listed, read⟩ := List.mem_filterMap.mp mem
    obtain ⟨content, content_read, rfl⟩ := Option.map_eq_some_iff.mp read
    exact isSection_sourceLines named scanned listed content_read

theorem sourceTexts_pairSystem : sourceTexts pairSystem "repo"
    (Scan.files { found := ["a.rb", "b.rb"], limit := 50 }) =
      [("a.rb", functionsText), ("b.rb", importsText)] := by
  decide +kernel

theorem sourceLines_functionsText : sourceLines ("a.rb", functionsText) =
    ["### 📄 `a.rb`", "", "- **Lines:** 12", "- **Functions:** a, b, c, d, e, f, g, h, i, j...",
      ""] := by
  decide +kernel

theorem sourceLines_importsText : sourceLines ("b.rb", importsText) =
    ["### 📄 `b.rb`", "", "- **Lines:** 7", "- **Key Imports:** a, b, c, d, e...", ""] := by
  decide +kernel

theorem reportCodebase_sections_pairSystem :
    pairSystem.NamesAreLines ∧ ∃ codebase,
      analyzeCodebase pairSystem {} "repo" = .ok codebase ∧ codebase.analyses ≠ [] ∧
      ∃ report first second file other,
        codebase.analyzed = [("a.rb", file), ("b.rb", other)] ∧
        reportCodebase pairSystem.working "repo" codebase.analyses = some report ∧
        Text.contentLines report =
          ["## 📁 Codebase Summary", ""] ++ (first ++ second) ++ [""] ∧
        IsSection pairSystem "repo" "a.rb" file first ∧
        IsSection pairSystem "repo" "b.rb" other second ∧ first ++ second =
          ["### 📄 `a.rb`", "", "- **Lines:** 12",
            "- **Functions:** a, b, c, d, e, f, g, h, i, j...", "",
            "### 📄 `b.rb`", "", "- **Lines:** 7", "- **Key Imports:** a, b, c, d, e...", ""] := by
  have names_lines : pairSystem.NamesAreLines := by decide +kernel
  have ended := analyzeCodebase_eq_ok loadIgnoreContext_pairSystem scan_pairSystem
    (hasNul_of_mem_files scan_pairSystem)
  have analyzed := @analyzed_codebaseOf pairSystem {} "repo"
    { found := ["a.rb", "b.rb"], limit := 50 }
  rw [sourceTexts_pairSystem] at analyzed
  have nonempty : (codebaseOf pairSystem {} "repo"
      { found := ["a.rb", "b.rb"], limit := 50 }).analyses ≠ [] := by
    rw [analyses_codebaseOf_eq_map, sourceTexts_pairSystem]
    simp
  obtain ⟨context, report, sections, -, -, -, -, reported, cut, shown⟩ :=
    reportCodebase_sections (by decide) names_lines ended nonempty
  -- one section for each of the two sources
  rw [analyzed, List.map_cons, List.map_singleton] at shown
  obtain ⟨first, rest, is_first, rest_shown, rfl⟩ := List.forall₂_cons_left_iff.mp shown
  obtain ⟨second, others, is_second, none_left, rfl⟩ :=
    List.forall₂_cons_left_iff.mp rest_shown
  obtain rfl := List.forall₂_nil_left_iff.mp none_left
  rw [List.flatten_cons, List.flatten_singleton] at cut
  refine ⟨names_lines, _, ended, nonempty, report, first, second, _, _, analyzed, reported, cut,
    is_first, is_second, ?_⟩
  -- and the lines of the report are known
  have made := reportCodebase_codebaseOf pairSystem.working (by decide) scan_pairSystem
  rw [sourceTexts_pairSystem] at made
  rw [Option.some.inj (reported.symm.trans made),
    contentLines_reportSources (by simp) (by decide), codebaseLines, List.map_cons,
    List.map_singleton, List.flatten_cons, List.flatten_singleton, sourceLines_functionsText,
    sourceLines_importsText] at cut
  exact (List.append_cancel_left (List.append_cancel_right cut)).symm

end TraceInquest
