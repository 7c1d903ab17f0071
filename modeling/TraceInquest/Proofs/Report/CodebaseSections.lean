import TraceInquest.Proofs.Codebase.Unreadable
import TraceInquest.Report.Codebase

/-! # The report on a codebase, made from the texts of its sources

The report on a codebase shows each source that is a text under the path that the scan gave it,
however the root is spelled. So the paths of the sources and their texts decide the whole report.

* **`sourceTexts`** — the texts of the sources of a codebase, with their paths.
* **`reportSources`** — the report that they make.
* **`reportCodebase_codebaseOf`** — the report on a codebase is made from them. -/

namespace TraceInquest

variable {system : FileSystem} {scope : Scope} {root path : String} {context : IgnoreContext}
  {listing : Scan}

/-- The texts of the sources at some paths below a root, each with its path. -/
def sourceTexts (system : FileSystem) (root : String) (paths : List String) :
    List (String × String) :=
  paths.filterMap fun path =>
    (readSource? system (Path.join root path)).map fun content => (path, content)

/-- The section of a source with a given text. -/
def reportSource (source : String × String) : String :=
  reportFile source.1 (analyzeContent {} source.1 source.2 none none)

/-- The report on sources with given texts. -/
def reportSources (sources : List (String × String)) : String :=
  if sources.isEmpty then noFilesMessage
  else "## 📁 Codebase Summary\n\n" ++ String.join (sources.map reportSource)

/-- The analyses of a codebase are those of the texts of its sources. -/
theorem analyses_codebaseOf_eq_map :
    (codebaseOf system scope root listing).analyses =
      (sourceTexts system root listing.files).map fun source =>
        analyzeContent scope (Path.join root source.1) source.2 none none := by
  rw [analyses_codebaseOf, sourceTexts, List.map_filterMap]
  simp only [Option.map_map, Function.comp_def]
  rfl

/-- The way to a source from the root is the path that the scan gave it. -/
theorem IsFileBelow.relative?_join {here names : List String} {bytes : List UInt8}
    (below : IsFileBelow system root path here names bytes) (working : List String)
    (named : root ≠ "") : Path.relative? working (Path.join root path) root = some path := by
  have plain := FileSystem.isPlain_of_isValidName below.valid
  have downwards : ".." ∉ names := fun mem => absurd (below.valid ".." mem) (by decide)
  have relative := below.relative
  rw [below.path_eq] at relative ⊢
  exact Path.relative?_join named below.nonempty plain.parts_plain downwards relative

/-- Sections that can all be made are made one by one. -/
theorem mapM_eq_some_map {α : Type} {make : α → Option String} {text : α → String}
    {items : List α} (made : ∀ item ∈ items, make item = some (text item)) :
    items.mapM make = some (items.map text) := by
  induction items with
  | nil => rfl
  | cons item items ih =>
    obtain ⟨first, others⟩ := List.forall_mem_cons.mp made
    rw [List.mapM_cons, first, ih others]
    rfl

/-- The report on a codebase is made from the texts of its sources. -/
theorem reportCodebase_codebaseOf (working : List String) (named : root ≠ "")
    (scanned : scan system scope root context = .ok listing) :
    reportCodebase working root (codebaseOf system scope root listing).analyses =
      some (reportSources (sourceTexts system root listing.files)) := by
  have made : ∀ source ∈ sourceTexts system root listing.files,
      (shownPath? working root (Path.join root source.1)).map (fun shown => reportFile shown
        (analyzeContent scope (Path.join root source.1) source.2 none none)) =
      some (reportSource source) := by
    intro source mem
    obtain ⟨path, listed, read⟩ := List.mem_filterMap.mp mem
    obtain ⟨content, -, rfl⟩ := Option.map_eq_some_iff.mp read
    obtain ⟨-, here, names, bytes, below⟩ := exists_isFileBelow scanned listed
    rw [shownPath?, if_neg (by simpa using named), below.relative?_join working named]
    rfl
  have sections := mapM_eq_some_map made
  rw [analyses_codebaseOf_eq_map, reportCodebase, reportSources, List.isEmpty_map,
    List.mapM_map]
  split
  · rfl
  · exact congrArg (Option.map _) sections

end TraceInquest
