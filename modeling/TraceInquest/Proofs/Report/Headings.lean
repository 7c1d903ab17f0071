import TraceInquest.Proofs.Report.CodebaseLines
import TraceInquest.Proofs.Report.SourceLines

/-! # The headings of the sections of a report

Both reports head their sections alike. No other line of a report can pass for such a heading,
whatever the sources and the names in the trace are, so the headings count the sections.

* **`countHeadings`** — how many lines of a report head a section.
* **`countHeadings_reportTrace`** — one for each frame that was resolved.
* **`countHeadings_reportCodebase`** — one for each source. -/

namespace TraceInquest

/-- What the heading of a section starts with. -/
def headingMark : String := "### 📄 `"

/-- How many lines of a report head a section. -/
def countHeadings (report : String) : Nat :=
  (Text.contentLines report).countP (·.startsWith headingMark)

theorem head?_headingMark : headingMark.toList.head? = some '#' := rfl

/-- A heading of another kind does not pass for one. -/
theorem not_startsWith_headingMark {line : String} (unlike : Text.StartUnlike line headingMark) :
    line.startsWith headingMark = false :=
  Text.startsWith_eq_false_of_unlike (Text.startsWith_self line) unlike

theorem not_heading_blank : "".startsWith headingMark = false :=
  Text.startsWith_eq_false head?_headingMark (by decide)

/-- Lines without headings among them. -/
theorem countP_heading_eq_zero {lines : List String}
    (others : ∀ line ∈ lines, line.startsWith headingMark = false) :
    lines.countP (·.startsWith headingMark) = 0 := by
  rw [List.countP_eq_zero]
  intro line mem
  rw [others line mem]
  exact Bool.false_ne_true

/-- Lines in front of a report that are no headings do not count. -/
theorem countHeadings_ofLines_append {lines : List String}
    (all_lines : ∀ line ∈ lines, Text.IsLine line)
    (others : ∀ line ∈ lines, line.startsWith headingMark = false) (report : String) :
    countHeadings (Text.ofLines lines ++ report) = countHeadings report := by
  rw [countHeadings, Text.contentLines_ofLines_append all_lines, List.countP_append,
    countP_heading_eq_zero others, Nat.zero_add, countHeadings]

/-! ## Reports on traces -/

/-- Behind the heading of a section with a window no line can pass for a heading. -/
theorem not_startsWith_of_mem_window {window : ContextWindow} (language : String) :
    ∀ line ∈ "" :: (codeFence ++ language) ::
      (window.lines.map windowLine ++ codeFence :: functionLines window),
      line.startsWith headingMark = false := by
  have fence (language : String) : (codeFence ++ language).startsWith headingMark = false :=
    Text.startsWith_append_eq_false head?_headingMark rfl (by decide)
  have closing := fence ""
  rw [String.append_empty] at closing
  have rows : ∀ line ∈ window.lines.map windowLine, line.startsWith headingMark = false := by
    rw [List.forall_mem_map]
    exact fun line _ => not_startsWith_windowLine line head?_headingMark (by decide)
  have function := @not_startsWith_of_mem_functionLines _ _ window head?_headingMark (by decide)
  exact List.forall_mem_cons.mpr ⟨not_heading_blank, List.forall_mem_cons.mpr ⟨fence language,
    List.forall_mem_append.mpr ⟨rows, List.forall_mem_cons.mpr ⟨closing, function⟩⟩⟩⟩

/-- A section has a heading if its frame was resolved, and none otherwise. -/
theorem countP_heading_sectionLines (result : FrameAnalysis) :
    (sectionLines result).countP (·.startsWith headingMark) =
      if result.isResolved then 1 else 0 := by
  obtain ⟨frame, outcome⟩ := result
  rw [isResolved_eq]
  cases outcome with
  | notFound =>
    have line (text : String) :
        ("❓ **File not found:** `" ++ text).startsWith headingMark = false :=
      Text.startsWith_append_eq_false head?_headingMark rfl (by decide)
    simp only [sectionLines, String.append_assoc, List.countP_singleton, line]
    rfl
  | noContext path =>
    have line (text : String) :
        ("⚠️ **No context available:** `" ++ text).startsWith headingMark = false :=
      Text.startsWith_append_eq_false head?_headingMark rfl (by decide)
    simp only [sectionLines, String.append_assoc, List.countP_singleton, line]
    rfl
  | resolved path window =>
    -- the first line of the section is its heading, and no other line starts like one
    have heading (text : String) : ("### 📄 `" ++ text).startsWith headingMark = true :=
      Text.startsWith_append headingMark text
    have others : ("" :: (codeFence ++ detectLanguage frame.filename) ::
        (window.lines.map windowLine ++ codeFence :: functionLines window)).countP
          (·.startsWith headingMark) = 0 :=
      countP_heading_eq_zero (not_startsWith_of_mem_window _)
    simp only [sectionLines, String.append_assoc, List.cons_append, List.nil_append]
    rw [List.countP_cons, others, heading]
    rfl

/-- The report on a trace has a heading for each frame that was resolved. -/
theorem countP_heading_traceReportLines (analysis : TraceAnalysis) :
    (traceReportLines analysis ++ [""]).countP (·.startsWith headingMark) =
      analysis.results.countP (·.isResolved) := by
  have heading : "## 🔍 Stack Trace Analysis".startsWith headingMark = false :=
    not_startsWith_headingMark (by decide)
  rw [List.countP_eq_length_filter,
    filter_startsWith_traceReportLines analysis head?_headingMark (by decide) (by decide) heading]
  -- frame by frame: one heading for a resolved frame, none for another
  induction analysis.results with
  | nil => rfl
  | cons result results ih =>
    rw [List.flatMap_cons, List.length_append, ih, ← List.countP_eq_length_filter,
      countP_heading_sectionLines, List.countP_cons, Nat.add_comm]

/-- Also the report on a text without frames, which has no results, has no heading. -/
theorem countHeadings_reportTrace {analysis : TraceAnalysis} (lines : analysis.HasLines)
    (results : analysis.frames = [] → analysis.results = []) :
    countHeadings (reportTrace analysis) = analysis.results.countP (·.isResolved) := by
  by_cases parsed : analysis.frames = []
  · have not_parsed : analysis.isParsed = false := by
      rw [TraceAnalysis.isParsed, parsed]
      rfl
    have cut : Text.contentLines unparsedMessage =
        ["❌ Could not parse stack trace. Please ensure it's in a valid format.", ""] := by
      decide
    have message : "❌ Could not parse stack trace. Please ensure it's in a valid format.".startsWith
        headingMark = false :=
      Text.startsWith_eq_false_of_ne head?_headingMark rfl (by decide)
    rw [countHeadings, reportTrace, not_parsed, if_neg Bool.false_ne_true, cut, results parsed]
    simp only [List.countP_cons, message, not_heading_blank]
    rfl
  · rw [countHeadings, contentLines_reportTrace parsed lines, countP_heading_traceReportLines]

/-! ## Reports on codebases -/

/-- A section has one heading. -/
theorem countP_heading_sourceLines (source : String × String) :
    (sourceLines source).countP (·.startsWith headingMark) = 1 := by
  have heading (text : String) : ("### 📄 `" ++ text).startsWith headingMark = true :=
    Text.startsWith_append headingMark text
  have count (text : String) : ("- **Lines:** " ++ text).startsWith headingMark = false :=
    Text.startsWith_append_eq_false head?_headingMark rfl (by decide)
  have listing (title : String) (limit : Nat) (items : List String) :
      (listingLines title limit items).countP (·.startsWith headingMark) = 0 := by
    have line (text : String) : ("- **" ++ text).startsWith headingMark = false :=
      Text.startsWith_append_eq_false head?_headingMark rfl (by decide)
    rw [listingLines]
    split
    · rfl
    · simp only [String.append_assoc, List.countP_singleton, line]
      rfl
  rw [sourceLines, fileLines]
  simp only [List.countP_append, List.countP_cons, List.countP_nil, String.append_assoc, heading,
    not_heading_blank, count, listing]
  rfl

/-- The report on sources has a heading for each of them. -/
theorem countHeadings_reportSources {sources : List (String × String)}
    (shown : ∀ source ∈ sources, Text.IsLine source.1) :
    countHeadings (reportSources sources) = sources.length := by
  by_cases none : sources = []
  · have cut : Text.contentLines noFilesMessage =
        ["*No relevant files found in the current codebase.*", ""] := by
      decide
    have message : "*No relevant files found in the current codebase.*".startsWith headingMark =
        false :=
      Text.startsWith_eq_false_of_ne head?_headingMark rfl (by decide)
    rw [none, countHeadings, reportSources, List.isEmpty_nil, if_pos rfl, cut]
    simp only [List.countP_cons, message, not_heading_blank]
    rfl
  · have summary : "## 📁 Codebase Summary".startsWith headingMark = false :=
      not_startsWith_headingMark (by decide)
    have sections : (sources.map sourceLines).flatten.countP (·.startsWith headingMark) =
        sources.length := by
      rw [List.countP_flatten, List.map_map]
      simp [Function.comp_def, countP_heading_sourceLines]
    rw [countHeadings, contentLines_reportSources none shown, codebaseLines]
    simp only [List.countP_append, List.countP_cons, List.countP_nil, sections, summary,
      not_heading_blank]
    simp

/-- The report on a codebase has a heading for each analysis, however its root is spelled. -/
theorem countHeadings_reportCodebase {system : FileSystem} {scope : Scope} {root report : String}
    {context : IgnoreContext} {listing : Scan}
    (lines : system.FileNamesAreLines)
    (scanned : scan system scope root context = .ok listing)
    (reported : reportCodebase system.working root
      (codebaseOf system scope root listing).analyses = some report) :
    countHeadings report = (codebaseOf system scope root listing).analyses.length := by
  have shown := @isLine_of_mem_sourceTexts _ _ root _ _ lines scanned
  rw [analyses_codebaseOf_eq_map, List.length_map]
  by_cases named : root = ""
  · -- the empty root leads nowhere, so nothing is listed below it
    have nothing : sourceTexts system root listing.files = [] := by
      refine List.filterMap_eq_nil_iff.mpr fun path mem => ?_
      obtain ⟨-, here, names, bytes, below⟩ := exists_isFileBelow scanned mem
      exact absurd named (FileSystem.ne_empty_of_resolve below.resolved)
    rw [analyses_codebaseOf_eq_map, nothing] at reported
    obtain rfl := Option.some_inj.mp reported
    rw [nothing]
    exact @countHeadings_reportSources [] (by simp)
  · rw [reportCodebase_codebaseOf system.working named scanned] at reported
    obtain rfl := Option.some_inj.mp reported
    exact countHeadings_reportSources shown

end TraceInquest
