import Std.Data.String.ToInt
import TraceInquest.Proofs.Report.Lines

/-! # The report on a trace shows what it is about

Two analyses have the same report only if they agree in everything the report is meant to show,
whatever the file names, function names and source lines are: none of these texts can pass for a
part of the report itself.

* **`Frame.ShowsLike`**, **`FrameAnalysis.ShowsLike`** — agreement in what is shown.
* **`sectionLines_append_eq_iff`** — a section can be read off the front of a list of lines.
* **`reportTrace_eq_iff`** — the reports are the same if and only if the analyses agree. -/

namespace TraceInquest

/-! ## Agreement in what is shown -/

/-- Whether the function of a frame is listed as anonymous. -/
def Frame.IsAnonymous (frame : Frame) : Prop :=
  frame.function = unknownFunction ∨ frame.function = "<anonymous>"

/-- Whether two frames are listed alike. -/
structure Frame.ShowsLike (frame other : Frame) : Prop where
  filename : frame.filename = other.filename
  line : frame.line = other.line
  function : frame.function = other.function ∨ frame.IsAnonymous ∧ other.IsAnonymous

/-- What is shown of a line of a window: its number, its text and whether it is the target. -/
def RelevantLine.shown (line : RelevantLine) : Int × String × Bool :=
  (line.number, line.content, decide (line.role = .target))

/-- Whether the sections of two frames say the same. -/
def FrameAnalysis.ShowsLike (result other : FrameAnalysis) : Prop :=
  result.frame.filename = other.frame.filename ∧
    match result.outcome, other.outcome with
    | .notFound, .notFound => True
    | .noContext _, .noContext _ => result.frame.line = other.frame.line
    | .resolved _ window, .resolved _ window' =>
      result.frame.line = other.frame.line ∧
        window.lines.map RelevantLine.shown = window'.lines.map RelevantLine.shown ∧
        window.containingFunction = window'.containingFunction
    | _, _ => False

theorem FrameAnalysis.ShowsLike.status_eq {result other : FrameAnalysis}
    (same : result.ShowsLike other) : result.outcome.status = other.outcome.status := by
  obtain ⟨frame, outcome⟩ := result
  obtain ⟨frame', outcome'⟩ := other
  cases outcome <;> cases outcome' <;> first | rfl | exact same.2.elim

/-! ## Single lines -/

theorem shownFunction_eq_iff {frame other : Frame} :
    shownFunction frame = shownFunction other ↔
      frame.function = other.function ∨ frame.IsAnonymous ∧ other.IsAnonymous := by
  simp only [shownFunction, Frame.hasFunction, Frame.IsAnonymous, bne_iff_ne, ne_eq, ite_not]
  split <;> split <;> grind

theorem not_colon_mem_toString (number : Int) : ':' ∉ (toString number).toList :=
  Text.not_mem_toString_int (by decide) (by decide) number

/-- The entry of a frame shows the frame. -/
theorem entryLines_eq_iff {number : Nat} {frame other : Frame} :
    entryLines number frame = entryLines number other ↔ frame.ShowsLike other := by
  rw [entryLines, entryLines, List.cons.injEq, List.cons.injEq, and_iff_left rfl]
  constructor
  · rintro ⟨first, second⟩
    rw [String.append_left_inj, String.append_right_inj, shownFunction_eq_iff] at first
    obtain ⟨filename, line⟩ := Text.append_inj_of_last (by decide) (not_colon_mem_toString _)
      (not_colon_mem_toString _) second
    exact ⟨(String.append_right_inj _).mp filename, Int.repr_inj.mp line, first⟩
  · rintro ⟨filename, line, function⟩
    rw [shownFunction_eq_iff.mpr function, filename, line]
    exact ⟨rfl, rfl⟩

theorem entryLines_append_ne_blank {number : Nat} {frame : Frame} {lines rest : List String} :
    entryLines number frame ++ lines ≠ "" :: rest := by
  intro same
  rw [entryLines, List.cons_append, List.cons.injEq, String.append_assoc] at same
  have parts := String.append_eq_empty_iff.mp same.1
  exact absurd (String.append_eq_empty_iff.mp parts.2).2 (by decide)

/-- The marker of a line can be read off its front. -/
theorem lineMarker_append_eq_iff {role other : LineRole} {text text' : String} :
    lineMarker role ++ text = lineMarker other ++ text' ↔
      (role = .target ↔ other = .target) ∧ text = text' := by
  have arrow : "→ " ++ text ≠ "  " ++ text' := Text.append_ne_append_of_head rfl rfl (by decide)
  have blank : "  " ++ text ≠ "→ " ++ text' := Text.append_ne_append_of_head rfl rfl (by decide)
  rw [lineMarker, lineMarker]
  split <;> split <;> simp_all

/-- A line of a window shows what is shown of it. -/
theorem windowLine_eq_iff {line other : RelevantLine} :
    windowLine line = windowLine other ↔ line.shown = other.shown := by
  have no_colon (line : RelevantLine) :
      ':' ∉ (lineMarker line.role ++ toString line.number).toList := by
    rw [String.toList_append, List.mem_append, not_or, lineMarker]
    refine ⟨?_, not_colon_mem_toString _⟩
    split <;> decide
  rw [RelevantLine.shown, RelevantLine.shown, Prod.mk.injEq, Prod.mk.injEq, decide_eq_decide]
  constructor
  · intro same
    obtain ⟨front, content⟩ :=
      Text.append_inj_of_first (by decide) (no_colon line) (no_colon other) same
    obtain ⟨role, number⟩ := lineMarker_append_eq_iff.mp front
    exact ⟨Int.repr_inj.mp number, content, role⟩
  · rintro ⟨number, content, role⟩
    have front := lineMarker_append_eq_iff.mpr ⟨role, congrArg toString number⟩
    rw [windowLine, windowLine, front, content]

theorem windowLine_ne_codeFence {line : RelevantLine} : windowLine line ≠ codeFence := by
  rw [windowLine, String.append_assoc, String.append_assoc, lineMarker, codeFence,
    ← String.append_empty (s := "```")]
  split
  · exact Text.append_ne_append_of_head rfl rfl (by decide)
  · exact Text.append_ne_append_of_head rfl rfl (by decide)

/-! ## Sections -/

/-- The line of the function can be read off the front, up to the empty line behind it. -/
theorem functionLines_append_eq_iff {window other : ContextWindow} {rest rest' : List String} :
    functionLines window ++ "" :: rest = functionLines other ++ "" :: rest' ↔
      window.containingFunction = other.containingFunction ∧ rest = rest' := by
  have named (function : String) : "🔧 **Function:** `" ++ function ++ "`" ≠ "" := by
    intro same
    exact absurd (String.append_eq_empty_iff.mp same).2 (by decide)
  have named_inj (function function' : String) :
      "🔧 **Function:** `" ++ function ++ "`" = "🔧 **Function:** `" ++ function' ++ "`" ↔
        function = function' := by
    rw [String.append_left_inj, String.append_right_inj]
  rw [functionLines, functionLines]
  -- the line is left out for a function that is not known, and shown it is not empty
  split <;> split <;> rename_i unknown unknown'
  · rw [unknown, unknown', List.nil_append, List.nil_append, List.cons.injEq]
    simp only [true_and]
  · rw [unknown, List.nil_append, List.singleton_append, List.cons.injEq]
    exact ⟨fun same => absurd same.1.symm (named _), fun same => absurd same.1.symm unknown'⟩
  · rw [unknown', List.nil_append, List.singleton_append, List.cons.injEq]
    exact ⟨fun same => absurd same.1 (named _), fun same => absurd same.1 unknown⟩
  · rw [List.singleton_append, List.singleton_append, List.cons.injEq, List.cons.injEq, named_inj]
    simp only [true_and]

/-- The lines of a window can be read off the front, up to the fence behind them. -/
theorem windowLines_append_eq_iff {lines lines' : List RelevantLine} {rest rest' : List String} :
    lines.map windowLine ++ codeFence :: rest = lines'.map windowLine ++ codeFence :: rest' ↔
      lines.map RelevantLine.shown = lines'.map RelevantLine.shown ∧ rest = rest' := by
  have no_fence (lines : List RelevantLine) : codeFence ∉ lines.map windowLine := by
    intro mem
    obtain ⟨line, -, same⟩ := List.mem_map.mp mem
    exact windowLine_ne_codeFence same
  have shown_iff : lines.map windowLine = lines'.map windowLine ↔
      lines.map RelevantLine.shown = lines'.map RelevantLine.shown := by
    rw [← List.forall₂_eq_eq_eq, List.forall₂_map_left_iff, List.forall₂_map_right_iff,
      ← List.forall₂_eq_eq_eq, List.forall₂_map_left_iff, List.forall₂_map_right_iff]
    simp only [windowLine_eq_iff]
  rw [← shown_iff]
  constructor
  · exact Text.append_cons_inj (no_fence lines) (no_fence lines')
  · rintro ⟨same, rfl⟩
    rw [same]

/-- The character a section begins with. -/
def sectionMark : FrameOutcome → Char
  | .notFound => '❓'
  | .noContext _ => '⚠'
  | .resolved _ _ => '#'

theorem head?_sectionLines_append (result : FrameAnalysis) (rest : List String) :
    (sectionLines result ++ rest).head?.bind (·.toList.head?) =
      some (sectionMark result.outcome) := by
  obtain ⟨frame, outcome⟩ := result
  cases outcome with
  | notFound =>
    simp only [sectionLines, List.singleton_append, List.head?_cons, Option.bind_some,
      String.toList_append, List.append_assoc]
    rfl
  | noContext path =>
    simp only [sectionLines, List.singleton_append, List.head?_cons, Option.bind_some,
      String.toList_append, List.append_assoc]
    rfl
  | resolved path window =>
    simp only [sectionLines, List.cons_append, List.head?_cons, Option.bind_some,
      String.toList_append, List.append_assoc]
    rfl

/-- Sections of frames that fared differently begin differently. -/
theorem sectionLines_append_ne {result other : FrameAnalysis}
    (differ : sectionMark result.outcome ≠ sectionMark other.outcome) (rest rest' : List String) :
    sectionLines result ++ rest ≠ sectionLines other ++ rest' := by
  intro same
  have firsts := head?_sectionLines_append result rest
  rw [same, head?_sectionLines_append, Option.some_inj] at firsts
  exact differ firsts.symm

/-- The name and the number between fixed words can be read off a line. -/
theorem named_line_eq_iff {name name' : String} {number number' : Int} {front mark back : String}
    (ends : mark.toList.getLast? = some ' ') :
    front ++ name ++ mark ++ toString number ++ back =
      front ++ name' ++ mark ++ toString number' ++ back ↔
      name = name' ∧ number = number' := by
  have no_blank (number : Int) : ' ' ∉ (toString number).toList :=
    Text.not_mem_toString_int (by decide) (by decide) number
  rw [String.append_left_inj]
  constructor
  · intro same
    obtain ⟨names, numbers⟩ := Text.append_inj_of_last ends (no_blank _) (no_blank _) same
    exact ⟨(String.append_right_inj _).mp names, Int.repr_inj.mp numbers⟩
  · rintro ⟨rfl, rfl⟩
    rfl

/-- A section can be read off the front, with the empty line behind it. -/
theorem sectionLines_append_eq_iff {result other : FrameAnalysis} {rest rest' : List String} :
    sectionLines result ++ "" :: rest = sectionLines other ++ "" :: rest' ↔
      result.ShowsLike other ∧ rest = rest' := by
  obtain ⟨frame, outcome⟩ := result
  obtain ⟨frame', outcome'⟩ := other
  have differ (marks : sectionMark outcome ≠ sectionMark outcome')
      (unlike : ¬FrameAnalysis.ShowsLike ⟨frame, outcome⟩ ⟨frame', outcome'⟩) :
      sectionLines ⟨frame, outcome⟩ ++ "" :: rest = sectionLines ⟨frame', outcome'⟩ ++ "" :: rest' ↔
        FrameAnalysis.ShowsLike ⟨frame, outcome⟩ ⟨frame', outcome'⟩ ∧ rest = rest' :=
    iff_of_false (sectionLines_append_ne marks _ _) fun same => unlike same.1
  -- frames that fared alike are compared part by part, others differ in the first character
  cases outcome with
  | notFound =>
    cases outcome' with
    | notFound =>
      simp only [sectionLines, FrameAnalysis.ShowsLike, List.singleton_append, List.cons.injEq,
        String.append_left_inj, String.append_right_inj, true_and, and_true]
    | noContext _ => exact differ (by simp [sectionMark]) fun same => same.2
    | resolved _ _ => exact differ (by simp [sectionMark]) fun same => same.2
  | noContext path =>
    cases outcome' with
    | noContext path' =>
      simp (disch := decide) only [sectionLines, FrameAnalysis.ShowsLike, List.singleton_append,
        List.cons.injEq, named_line_eq_iff, true_and]
    | notFound => exact differ (by simp [sectionMark]) fun same => same.2
    | resolved _ _ => exact differ (by simp [sectionMark]) fun same => same.2
  | resolved path window =>
    cases outcome' with
    | resolved path' window' =>
      simp (disch := decide) only [sectionLines, FrameAnalysis.ShowsLike, List.cons_append,
        List.nil_append, List.append_assoc, List.cons.injEq, named_line_eq_iff,
        windowLines_append_eq_iff, functionLines_append_eq_iff, String.append_right_inj, true_and]
      constructor
      · rintro ⟨⟨filename, line⟩, -, lines, function, rest⟩
        exact ⟨⟨filename, line, lines, function⟩, rest⟩
      · rintro ⟨⟨filename, line, lines, function⟩, rest⟩
        exact ⟨⟨filename, line⟩, congrArg detectLanguage filename, lines, function, rest⟩
    | notFound => exact differ (by simp [sectionMark]) fun same => same.2
    | noContext _ => exact differ (by simp [sectionMark]) fun same => same.2

/-! ## Lists of entries and sections -/

/-- The lines of the entries of frames that are counted from some number on. -/
def entriesFrom (number : Nat) (frames : List Frame) : List String :=
  (frames.mapIdx fun index frame => entryLines (index + number) frame).flatten

@[simp] theorem entriesFrom_nil (number : Nat) : entriesFrom number [] = [] := rfl

@[simp] theorem entriesFrom_cons (number : Nat) (frame : Frame) (frames : List Frame) :
    entriesFrom number (frame :: frames) =
      entryLines number frame ++ entriesFrom (number + 1) frames := by
  rw [entriesFrom, List.mapIdx_cons, List.flatten_cons, Nat.zero_add, entriesFrom]
  simp only [Nat.add_right_comm, Nat.add_assoc]

/-- The entries can be read off the front, up to the empty line behind them. -/
theorem entriesFrom_append_eq_iff {number : Nat} {frames frames' : List Frame}
    {rest rest' : List String} :
    entriesFrom number frames ++ "" :: rest = entriesFrom number frames' ++ "" :: rest' ↔
      List.Forall₂ Frame.ShowsLike frames frames' ∧ rest = rest' := by
  induction frames generalizing number frames' with
  | nil =>
    cases frames' with
    | nil => simp
    | cons frame' frames' =>
      -- where one list ends with the empty line, the other goes on with an entry
      rw [entriesFrom_nil, List.nil_append, entriesFrom_cons, List.append_assoc]
      exact iff_of_false (fun same => entryLines_append_ne_blank same.symm) (by simp)
  | cons frame frames ih =>
    cases frames' with
    | nil =>
      rw [entriesFrom_nil, List.nil_append, entriesFrom_cons, List.append_assoc]
      exact iff_of_false entryLines_append_ne_blank (by simp)
    | cons frame' frames' =>
      -- entries have two lines each, so the first entries end at the same place
      have lengths : (entryLines number frame).length = (entryLines number frame').length := rfl
      rw [entriesFrom_cons, entriesFrom_cons, List.append_assoc, List.append_assoc,
        List.append_eq_append_iff_of_size_eq_left lengths, entryLines_eq_iff, ih, List.forall₂_cons,
        and_assoc]

/-- The sections can be read off a list of lines. -/
theorem sections_eq_iff {results results' : List FrameAnalysis} :
    (results.map fun result => sectionLines result ++ [""]).flatten =
      (results'.map fun result => sectionLines result ++ [""]).flatten ↔
      List.Forall₂ FrameAnalysis.ShowsLike results results' := by
  induction results generalizing results' with
  | nil =>
    cases results' with
    | nil => simp
    | cons result' results' =>
      rw [List.map_nil, List.flatten_nil, List.map_cons, List.flatten_cons, List.append_assoc]
      simp
  | cons result results ih =>
    cases results' with
    | nil =>
      rw [List.map_nil, List.flatten_nil, List.map_cons, List.flatten_cons, List.append_assoc]
      simp
    | cons result' results' =>
      rw [List.map_cons, List.flatten_cons, List.map_cons, List.flatten_cons, List.append_assoc,
        List.append_assoc, List.singleton_append, List.singleton_append,
        sectionLines_append_eq_iff, ih, List.forall₂_cons]

theorem traceReportLines_eq_iff {analysis other : TraceAnalysis} :
    traceReportLines analysis = traceReportLines other ↔
      List.Forall₂ Frame.ShowsLike analysis.frames other.frames ∧
        List.Forall₂ FrameAnalysis.ShowsLike analysis.results other.results := by
  have entries (analysis : TraceAnalysis) :
      (analysis.frames.mapIdx fun index frame => entryLines (index + 1) frame).flatten =
        entriesFrom 1 analysis.frames := rfl
  rw [traceReportLines, traceReportLines, List.append_cancel_left_eq, entries, entries,
    List.append_assoc, List.append_assoc]
  simp only [List.cons_append, List.nil_append, entriesFrom_append_eq_iff, List.cons.injEq,
    sections_eq_iff, true_and]

/-! ## Reports -/

/-- Reports on traces with frames are the same if and only if the analyses list the same frames
and say the same of each frame that was investigated. -/
theorem reportTrace_eq_iff {analysis other : TraceAnalysis} (parsed : analysis.frames ≠ [])
    (parsed' : other.frames ≠ []) (lines : analysis.HasLines) (lines' : other.HasLines) :
    reportTrace analysis = reportTrace other ↔
      List.Forall₂ Frame.ShowsLike analysis.frames other.frames ∧
        List.Forall₂ FrameAnalysis.ShowsLike analysis.results other.results := by
  rw [← traceReportLines_eq_iff]
  constructor
  · intro same
    -- no text holds a line feed, so equal reports have equal lines
    have cut := congrArg Text.contentLines same
    rw [contentLines_reportTrace parsed lines, contentLines_reportTrace parsed' lines'] at cut
    exact (List.append_left_inj [""]).mp cut
  · intro same
    rw [reportTrace_eq parsed, reportTrace_eq parsed', same]

/-- A line of a window that looks like the end of the window. -/
def forgedFence : RelevantLine := { number := 1, content := "```", role := .target }

/-- A line of a window that looks like the heading of a section. -/
def forgedHeading : RelevantLine :=
  { number := 2, content := "### 📄 `a.rb` (Line 1)", role := .after }

/-- An analysis whose source lines look like parts of a report. -/
def forgedAnalysis (path function : String) : TraceAnalysis where
  frames := [{ filename := "`.rb", function, line := 1 }]
  results := [{
    frame := { filename := "`.rb", function, line := 1 }
    outcome := .resolved path { path, targetLine := 1, lines := [forgedFence, forgedHeading] } }]

theorem hasLines_forgedAnalysis (path : String) {function : String}
    (is_line : Text.IsLine function) : (forgedAnalysis path function).HasLines := by
  have filename : Text.IsLine "`.rb" := by decide
  have unknown : Text.IsLine unknownFunction := by decide
  have content : ∀ line ∈ [forgedFence, forgedHeading], Text.IsLine line.content := by decide
  refine ⟨List.forall_mem_singleton.mpr ⟨filename, is_line⟩,
    List.forall_mem_singleton.mpr ⟨filename, is_line⟩,
    List.forall_mem_singleton.mpr fun window shown => ?_⟩
  obtain rfl := Option.some_inj.mp shown
  exact ⟨unknown, content⟩

theorem reportTrace_forgedAnalysis_eq :
    (forgedAnalysis "a" "<unknown>").frames ≠ [] ∧ (forgedAnalysis "b" "<anonymous>").frames ≠ [] ∧
      (forgedAnalysis "a" "<unknown>").HasLines ∧ (forgedAnalysis "b" "<anonymous>").HasLines ∧
      reportTrace (forgedAnalysis "a" "<unknown>") =
        reportTrace (forgedAnalysis "b" "<anonymous>") := by
  have parsed (path function : String) : (forgedAnalysis path function).frames ≠ [] :=
    List.cons_ne_nil _ _
  have lines : (forgedAnalysis "a" "<unknown>").HasLines := hasLines_forgedAnalysis "a" (by decide)
  have lines' : (forgedAnalysis "b" "<anonymous>").HasLines :=
    hasLines_forgedAnalysis "b" (by decide)
  refine ⟨parsed _ _, parsed _ _, lines, lines', ?_⟩
  rw [reportTrace_eq_iff (parsed _ _) (parsed _ _) lines lines']
  exact ⟨.cons ⟨rfl, rfl, .inr ⟨.inl rfl, .inr rfl⟩⟩ .nil, .cons ⟨rfl, rfl, rfl, rfl⟩ .nil⟩

end TraceInquest
