import TraceInquest.Proofs.Report.Headings
import TraceInquest.Proofs.Run.Messages

/-! # The log of a run on a codebase

The log says how many sources were found, which of them were skipped and how many were analysed; the
report has a section for each analysis.

* **`AgreesOnCodebase`** — what a log and a report have to agree in.
* **`codebaseRunEvents`** — the events of a run on a codebase.
* **`agreesOnCodebase`** — their messages agree with the report. -/

namespace TraceInquest

variable {settings : Settings} {report path : String} {system : FileSystem}
  {codebase : CodebaseAnalysis} {front back : String}

/-! ## Agreement -/

/-- Whether a log and a report agree on a codebase with so many sources, of which no more than a
limit are wanted and so many were analysed. -/
structure AgreesOnCodebase (limit : Int) (found analyzed : Nat) (log : List String)
    (report : String) : Prop where
  found_said : messagesBetween "[Scanner] Found " " files" log =
    ["[Scanner] Found " ++ toString found ++ " files"]
  cut_said : messagesBetween "[Scanner] Truncated to " " files" log =
    if limit < found then ["[Scanner] Truncated to " ++ toString limit ++ " files"] else []
  skipped_messages : ((messagesBetween "[Investigation] Skipped unreadable file " "" log).length :
    Int) = min (found : Int) limit - analyzed
  analyzed_said : messagesBetween "[Investigation] Analyzed " " files" log =
    ["[Investigation] Analyzed " ++ toString analyzed ++ " files"]
  sections : countHeadings report = analyzed
  no_sections : analyzed = 0 → report = noFilesMessage

/-! ## The log of a run on a codebase -/

/-- What is said of the sources that cannot be read. -/
def CodebaseAnalysis.skippedEvents (codebase : CodebaseAnalysis) : List Event :=
  codebase.outcomes.filterMap fun (path, analysis) =>
    if analysis.isSome then none else some (.fileSkipped path)

theorem CodebaseAnalysis.front_of_mem_skippedEvents {codebase : CodebaseAnalysis} :
    ∀ event ∈ codebase.skippedEvents, event.front = "[Investigation] Skipped unreadable file " := by
  intro event mem
  obtain ⟨⟨path, analysis⟩, -, skipped⟩ := List.mem_filterMap.mp mem
  cases analysis with
  | none =>
    obtain rfl := Option.some_inj.mp skipped
    rfl
  | some file => cases skipped

/-- A wanted source is analysed or skipped. -/
theorem CodebaseAnalysis.length_skippedEvents (codebase : CodebaseAnalysis) :
    codebase.skippedEvents.length + codebase.analyses.length = codebase.outcomes.length := by
  rw [skippedEvents, analyses]
  induction codebase.outcomes with
  | nil => rfl
  | cons outcome outcomes ih =>
    obtain ⟨path, analysis⟩ := outcome
    rw [List.length_cons, ← ih]
    cases analysis with
    | none =>
      simp only [List.filterMap_cons, Option.isSome_none, Bool.false_eq_true, if_false,
        List.length_cons]
      omega
    | some file =>
      simp only [List.filterMap_cons, Option.isSome_some, if_true, List.length_cons]
      omega

/-- Every one of their messages is on a source that is skipped. -/
theorem CodebaseAnalysis.messagesBetween_own_skippedEvents (codebase : CodebaseAnalysis) :
    messagesBetween "[Investigation] Skipped unreadable file " ""
      (codebase.skippedEvents.map (·.message)) = codebase.skippedEvents.map (·.message) := by
  refine List.filter_eq_self.mpr (List.forall_mem_map.mpr fun event mem => ?_)
  have starts := event.startsWith_front
  rw [codebase.front_of_mem_skippedEvents event mem] at starts
  rw [starts, Text.endsWith_empty]
  rfl

/-- Of the sources that are found, those within the limit are skipped or analysed. -/
theorem CodebaseAnalysis.length_skippedEvents_codebaseOf {scope : Scope} {root : String}
    {listing : Scan} (nonnegative : 0 ≤ listing.limit) :
    ((codebaseOf system scope root listing).skippedEvents.length : Int) =
      min (listing.found.length : Int) listing.limit -
        (codebaseOf system scope root listing).analyses.length := by
  have wanted := @length_takeUpTo _ listing.limit nonnegative listing.found
  have outcomes : (codebaseOf system scope root listing).outcomes.length =
      (takeUpTo listing.limit listing.found).length := List.length_map _
  have skipped_or_analyzed := (codebaseOf system scope root listing).length_skippedEvents
  omega

/-- The events of a run on a codebase. -/
def codebaseRunEvents (codebase : CodebaseAnalysis) (path : String) : List Event :=
  titleEvents ++ (.noTrace :: .codebaseStarted :: codebase.events) ++ [.reportSaved path]

/-- What is said of a codebase in brackets. -/
theorem messagesBetween_codebaseRunEvents (bracket : front.toList.head? = some '[')
    (start : ∀ event ∈ [Event.noTrace, .codebaseStarted, .scanStarted],
      Text.StartUnlike event.front front) :
    messagesBetween front back ((codebaseRunEvents codebase path).map (·.message)) =
      messagesBetween front back ([Event.scanFound codebase.scan.found.length].map (·.message)) ++
        (messagesBetween front back ((if codebase.scan.isCut then [Event.scanCut codebase.scan.limit]
            else []).map (·.message)) ++
          (messagesBetween front back (codebase.skippedEvents.map (·.message)) ++
            messagesBetween front back
              ([Event.codebaseDone codebase.analyses.length].map (·.message)))) := by
  have parts : Event.noTrace :: .codebaseStarted :: codebase.events =
      [Event.noTrace, .codebaseStarted, .scanStarted] ++
        ([Event.scanFound codebase.scan.found.length] ++
          ((if codebase.scan.isCut then [Event.scanCut codebase.scan.limit] else []) ++
            (codebase.skippedEvents ++ [Event.codebaseDone codebase.analyses.length]))) := by
    rw [CodebaseAnalysis.events, Scan.events, CodebaseAnalysis.skippedEvents]
    simp only [List.append_assoc, List.cons_append, List.nil_append]
  rw [codebaseRunEvents, messagesBetween_run bracket, parts]
  simp only [List.map_append, messagesBetween_append, messagesBetween_of_unlike start,
    List.nil_append]

section Parts

variable {files : Nat} {limit : Int}

theorem messagesBetween_scanFound (unlike : Text.StartUnlike "[Scanner] Found " front) :
    messagesBetween front back ([Event.scanFound files].map (·.message)) = [] :=
  messagesBetween_of_front unlike (List.forall_mem_singleton.mpr rfl)

theorem messagesBetween_scanCut (unlike : Text.StartUnlike "[Scanner] Truncated to " front) :
    messagesBetween front back
      ((if codebase.scan.isCut then [Event.scanCut limit] else []).map (·.message)) = [] := by
  split
  · exact messagesBetween_of_front unlike (List.forall_mem_singleton.mpr rfl)
  · rfl

theorem messagesBetween_skippedEvents
    (unlike : Text.StartUnlike "[Investigation] Skipped unreadable file " front) :
    messagesBetween front back (codebase.skippedEvents.map (·.message)) = [] :=
  messagesBetween_of_front unlike codebase.front_of_mem_skippedEvents

theorem messagesBetween_codebaseDone (unlike : Text.StartUnlike "[Investigation] Analyzed " front) :
    messagesBetween front back ([Event.codebaseDone files].map (·.message)) = [] :=
  messagesBetween_of_front unlike (List.forall_mem_singleton.mpr rfl)

end Parts

/-- What the log of a run says of a codebase agrees with its report. -/
theorem agreesOnCodebase (positive : 1 ≤ settings.maxFiles)
    (lines : system.FileNamesAreLines)
    (analyzed : analyzeCodebase system settings.scope settings.codebasePath = .ok codebase)
    (reported : reportCodebase system.working settings.codebasePath codebase.analyses =
      some report) :
    AgreesOnCodebase settings.maxFiles codebase.scan.found.length codebase.analyses.length
      ((codebaseRunEvents codebase path).map (·.message)) report := by
  obtain ⟨context, listing, -, scanned, codebase_eq⟩ := exists_scan_of_analyzeCodebase analyzed
  have limit_eq : codebase.scan.limit = settings.maxFiles := by
    rw [codebase_eq]
    exact limit_of_scan scanned
  have cut_iff : codebase.scan.isCut = true ↔
      settings.maxFiles < (codebase.scan.found.length : Int) := by
    rw [Scan.isCut, limit_eq, decide_eq_true_iff]
  exact {
    found_said := by
      rw [messagesBetween_codebaseRunEvents rfl (by decide), messagesBetween_scanCut (by decide),
        messagesBetween_skippedEvents (by decide), messagesBetween_codebaseDone (by decide),
        List.append_nil, List.append_nil, List.append_nil]
      exact messagesBetween_singleton _ _ _
    cut_said := by
      rw [messagesBetween_codebaseRunEvents rfl (by decide), messagesBetween_scanFound (by decide),
        messagesBetween_skippedEvents (by decide), messagesBetween_codebaseDone (by decide),
        List.nil_append, List.append_nil, List.append_nil, limit_eq]
      simp only [cut_iff]
      split
      · exact messagesBetween_singleton _ _ _
      · rfl
    skipped_messages := by
      rw [messagesBetween_codebaseRunEvents rfl (by decide), messagesBetween_scanFound (by decide),
        messagesBetween_scanCut (by decide), messagesBetween_codebaseDone (by decide),
        codebase.messagesBetween_own_skippedEvents, List.nil_append, List.nil_append,
        List.append_nil, List.length_map, ← limit_eq, codebase_eq]
      refine CodebaseAnalysis.length_skippedEvents_codebaseOf ?_
      rw [limit_of_scan scanned]
      exact Int.le_trans (by decide) positive
    analyzed_said := by
      rw [messagesBetween_codebaseRunEvents rfl (by decide), messagesBetween_scanFound (by decide),
        messagesBetween_scanCut (by decide), messagesBetween_skippedEvents (by decide)]
      exact messagesBetween_singleton _ _ _
    sections := by
      rw [codebase_eq] at reported ⊢
      exact countHeadings_reportCodebase lines scanned reported
    no_sections := by
      intro none
      rw [List.length_eq_zero_iff] at none
      rw [reportCodebase, none] at reported
      exact (Option.some_inj.mp reported).symm }

end TraceInquest
