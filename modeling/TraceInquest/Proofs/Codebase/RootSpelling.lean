import TraceInquest.Proofs.Codebase.FirstText
import TraceInquest.Proofs.Codebase.FrameOrder
import TraceInquest.Proofs.FileSystem.Spelling
import TraceInquest.Proofs.Report.CodebaseSections
import TraceInquest.Report.Trace

/-! # Spellings of the root of a codebase

The root of a codebase is never tidied up: it stands in front of every path that is followed, and
is taken off again where a path is shown. Whatever is asked about a codebase, the answer depends on
the directory at the root and not on how the root is spelled, as long as no path that is followed
gets too long in one spelling only.

* **`listedFiles`**, **`codebaseReport`**, **`traceReport`** — what can be asked.
* **`SameAnswers`** — whether two roots have the same answers.
* **`SpelledAlike`** — whether the same paths are too long behind both.
* **`sourcesOf_spelled`**, **`sourceTexts_spelled`**, **`locate_spelled`** — what the answers are
  made of.
* **`sameAnswers_of_sameFolder`** — roots that denote the same directory have the same answers.
* **`not_forall_sameAnswers`** — with enough slashes in a root they do not. -/

namespace TraceInquest

variable {system : FileSystem} {scope : Scope} {first second root trace : String}
  {here : List String} {directory : Directory}

/-! ## Questions about a codebase -/

/-- Why a codebase cannot be listed or summarised, whatever path that is said of. -/
def CodebaseFault.cause : CodebaseFault → IgnoreFault ⊕ FileFault
  | .ignore fault => .inl fault
  | .file _ fault => .inr fault

/-- The sources of a codebase by its own ignore rules. -/
def listedFiles (system : FileSystem) (scope : Scope) (root : String) :
    Except (IgnoreFault ⊕ FileFault) Scan := do
  let context ← (loadIgnoreContext system root).mapError CodebaseFault.cause
  (scan system scope root context).mapError .inr

/-- The report on a codebase. -/
def codebaseReport (system : FileSystem) (scope : Scope) (root : String) :
    Except (IgnoreFault ⊕ FileFault) (Option String) :=
  ((analyzeCodebase system scope root).mapError CodebaseFault.cause).map fun codebase =>
    reportCodebase system.working root codebase.analyses

/-- The report on a trace; `late` says which frames take longer than the limit. -/
def traceReport (system : FileSystem) (scope : Scope) (root trace : String) (late : Nat → Bool) :
    Except Text.NumeralTooLong String :=
  (analyzeTrace system scope root trace late).map reportTrace

/-- Whether the answers about two roots are the same: the sources by given ignore rules and by those
of the codebase, the report on the codebase and the report on a trace, or the failure of each. -/
structure SameAnswers (system : FileSystem) (scope : Scope) (trace first second : String) :
    Prop where
  scan : ∀ context, scan system scope first context = scan system scope second context
  listedFiles : listedFiles system scope first = listedFiles system scope second
  codebaseReport : codebaseReport system scope first = codebaseReport system scope second
  /-- What can be reported on the trace, whichever frames take longer than the limit. -/
  traceReport : ∀ late, traceReport system scope first trace late =
    traceReport system scope second trace late
  /-- The report on the trace, where it does not matter how long frames take. -/
  settledReport : scope.frameTimeout = none ∨ scope.allowsNoTime = true → ∀ late late',
    TraceInquest.traceReport system scope first trace late =
      TraceInquest.traceReport system scope second trace late'

/-- Whether the paths that are too long to be followed are the same behind two roots: those of what
lies in the directory, of its ignore file, and of the files that the frames of a trace, as many as
are wanted, may mean. -/
structure SpelledAlike (system : FileSystem) (scope : Scope) (trace first second : String)
    (directory : Directory) : Prop where
  entries : ∀ names node, directory.find? names = some node → names ≠ [] →
    ((Path.join first (Path.ofComponents names)).utf8ByteSize ≤ maxPathSize ↔
      (Path.join second (Path.ofComponents names)).utf8ByteSize ≤ maxPathSize)
  ignoreFile : ((Location.ofPath first).child ignoreFileName).text.utf8ByteSize ≤ maxPathSize ↔
    ((Location.ofPath second).child ignoreFileName).text.utf8ByteSize ≤ maxPathSize
  candidates : ∀ frames, parseTrace TraceRule.all trace = .ok frames →
    ∀ frame ∈ takeUpTo scope.maxFrames frames, ∀ folder ∈ scope.resolutionPrefixes,
      ReachesAlike system first second (Path.join folder frame.filename)

/-! ## The sources -/

/-- The sources of a directory by given rules. -/
def listing (scope : Scope) (root : String) (rules? : Option (List IgnoreRule))
    (directory : Directory) : Scan where
  found := (sourcesOf scope root { root, rules? } directory).map (·.path)
  limit := scope.maxFiles

/-- Which directories can be followed does not depend on the spelling of the root. -/
theorem isReachable_spelled (alike : SpelledAlike system scope trace first second directory)
    {folders : List String} {name : String} {node : Node}
    (found : directory.find? (folders ++ [name]) = some node) :
    IsReachable first folders ↔ IsReachable second folders := by
  refine forall_congr' fun above => forall_congr' fun initial => forall_congr' fun nonempty => ?_
  obtain ⟨behind, rfl⟩ := initial
  -- what has an entry below it is there itself
  obtain ⟨entries, above_found⟩ : ∃ entries, directory.find? above = some (.folder entries) := by
    rw [List.append_assoc] at found
    exact Directory.exists_find?_of_append (by simp) found
  exact alike.entries above _ above_found nonempty

theorem sourcesOf_spelled (same : SameFolder system first second here directory)
    (alike : SpelledAlike system scope trace first second directory) (context : IgnoreContext) :
    sourcesOf scope first context directory = sourcesOf scope second context directory := by
  have proper := FileSystem.isProper_of_entries? same.entries?
  have same_sources : reachableSources scope first context directory =
      reachableSources scope second context directory := by
    ext source
    refine exists_congr fun folders => exists_congr fun name => and_congr_right fun _ =>
      and_congr_right fun _ => and_congr_right fun eligible => ?_
    obtain ⟨bytes, found⟩ := eligible.isFile
    exact isReachable_spelled alike found
  -- both lists are ordered, and an ordered list is decided by what is in it
  have ordered : IsOrderedList (reachableSources scope first context directory)
      (sourcesOf scope first context directory) := isOrderedList_sourcesOf proper
  rw [same_sources] at ordered
  exact (isOrderedList_sourcesOf proper).unique ordered

/-- The path in front of ignore rules does not matter for what they ignore. -/
theorem sourcesOf_of_rules (scope : Scope) (root other : String) (context : IgnoreContext)
    (directory : Directory) :
    sourcesOf scope root { context with root := other } directory =
      sourcesOf scope root context directory := by
  -- the filter of the walk looks at the rules alone
  have same_filter : walkFilter scope root { context with root := other } =
      walkFilter scope root context := rfl
  rw [sourcesOf, sourcesOf, same_filter]

theorem listing_spelled (same : SameFolder system first second here directory)
    (alike : SpelledAlike system scope trace first second directory)
    (rules? : Option (List IgnoreRule)) :
    listing scope first rules? directory = listing scope second rules? directory := by
  rw [listing, listing, sourcesOf_spelled same alike]
  exact congrArg (fun sources => Scan.mk (sources.map (·.path)) scope.maxFiles)
    (sourcesOf_of_rules scope second first { root := second, rules? } directory)

theorem scan_spelled (same : SameFolder system first second here directory)
    (alike : SpelledAlike system scope trace first second directory) (context : IgnoreContext) :
    scan system scope first context = scan system scope second context := by
  rw [scan_of_entries? same.entries?, scan_of_entries? same.symm.entries?,
    sourcesOf_spelled same alike]

/-! ## The ignore rules -/

/-- The ignore rules in what was read at the location of the ignore file. -/
def ignoreRules (read : Except FileFault (List UInt8)) :
    Except (IgnoreFault ⊕ FileFault) (Option (List IgnoreRule)) :=
  match read with
  | .ok bytes =>
    let read := Text.readLines Text.blockSize bytes
    ((parseRules read.lines).mapError .inl).map fun rules => if read.whole then some rules else none
  | .error .nameTooLong => .error (.inr .nameTooLong)
  | .error _ => .ok none

theorem loadIgnoreContext_eq (system : FileSystem) (root : String) :
    (loadIgnoreContext system root).mapError CodebaseFault.cause =
      (ignoreRules (system.readBytes ((Location.ofPath root).child ignoreFileName).text)).map
        fun rules? => { root, rules? } := by
  unfold loadIgnoreContext
  dsimp only
  cases system.readBytes ((Location.ofPath root).child ignoreFileName).text with
  | error fault => cases fault <;> rfl
  | ok bytes =>
    dsimp only [ignoreRules]
    cases parseRules (Text.readLines Text.blockSize bytes).lines <;> rfl

/-- The sources of a codebase by its own ignore rules. -/
theorem listedFiles_eq (isFolder : system.entries? root = some directory) :
    listedFiles system scope root =
      (ignoreRules (system.readBytes ((Location.ofPath root).child ignoreFileName).text)).map
        fun rules? => listing scope root rules? directory := by
  rw [listedFiles, loadIgnoreContext_eq]
  cases ignoreRules (system.readBytes ((Location.ofPath root).child ignoreFileName).text) with
  | error fault => rfl
  | ok rules? =>
    change (scan system scope root { root, rules? }).mapError Sum.inr = _
    rw [scan_of_entries? isFolder]
    rfl

/-- The report on a codebase is made from the texts of its sources. -/
theorem codebaseReport_eq (named : root ≠ "") (isFolder : system.entries? root = some directory) :
    codebaseReport system scope root =
      (ignoreRules (system.readBytes ((Location.ofPath root).child ignoreFileName).text)).map
        fun rules? => some (reportSources
          (sourceTexts system root (listing scope root rules? directory).files)) := by
  have rules_eq := loadIgnoreContext_eq system root
  rw [codebaseReport]
  cases loaded : loadIgnoreContext system root with
  | error fault =>
    -- without rules nothing is scanned, and the failure is that of the ignore file
    rw [loaded] at rules_eq
    have failed := except_map_eq_error.mp rules_eq.symm
    rw [failed, analyzeCodebase, loaded]
    rfl
  | ok context =>
    rw [loaded] at rules_eq
    obtain ⟨rules?, rules, rfl⟩ := except_map_eq_ok.mp rules_eq.symm
    have scanned : scan system scope root { root, rules? } =
        .ok (listing scope root rules? directory) := scan_of_entries? isFolder
    have analyzed := analyzeCodebase_eq_ok loaded scanned (hasNul_of_mem_files scanned)
    rw [rules, analyzed]
    exact congrArg Except.ok (reportCodebase_codebaseOf system.working named scanned)

/-! ## The texts of the sources -/

theorem readSource?_spelled (same : SameFolder system first second here directory)
    {path : String} (alike : ReachesAlike system first second path) :
    readSource? system (Path.join first path) = readSource? system (Path.join second path) := by
  ext content
  simp only [readSource?_eq_some_iff, FileSystem.readText_eq_ok_iff,
    same.readBytes_join_iff alike]

/-- A file of the directory is not too long behind one root only. -/
theorem SpelledAlike.reachesAlike
    (alike : SpelledAlike system scope trace first second directory) {names : List String}
    {node : Node} (found : directory.find? names = some node) (nonempty : names ≠ []) :
    ReachesAlike system first second (Path.ofComponents names) := by
  have short {base : String} (isFile : system.isFile base = true) :
      base.utf8ByteSize ≤ maxPathSize := by
    rw [FileSystem.isFile] at isFile
    split at isFile
    · rename_i bytes got
      obtain ⟨there, resolved, -⟩ := FileSystem.get_eq_ok_iff.mp got
      exact (FileSystem.checkPath_eq_ok_iff.mp (FileSystem.checkPath_of_resolve resolved)).2
    · cases isFile
  exact ⟨fun isFile => (alike.entries names node found nonempty).mp (short isFile),
    fun isFile => (alike.entries names node found nonempty).mpr (short isFile)⟩

theorem sourceTexts_spelled (same : SameFolder system first second here directory)
    (alike : SpelledAlike system scope trace first second directory)
    (rules? : Option (List IgnoreRule)) :
    sourceTexts system first (listing scope first rules? directory).files =
      sourceTexts system second (listing scope second rules? directory).files := by
  have proper := FileSystem.isProper_of_entries? same.entries?
  rw [listing_spelled same alike]
  refine List.filterMap_congr fun path mem => ?_
  obtain ⟨folders, name, rfl, eligible, -⟩ :=
    (mem_map_path_sourcesOf proper).mp ((takeUpTo_isPrefix _ _).subset mem)
  obtain ⟨bytes, found⟩ := eligible.isFile
  rw [readSource?_spelled same (alike.reachesAlike found (by simp))]

/-! ## The files of frames -/

/-- The text that is found for a name does not depend on the spelling of the root. -/
theorem locate_spelled (same : SameFolder system first second here directory) {name : String}
    (alike : ∀ folder ∈ scope.resolutionPrefixes,
      ReachesAlike system first second (Path.join folder name)) :
    (locate system scope first name).map (·.2) = (locate system scope second name).map (·.2) := by
  rw [locate, locate, candidates, candidates]
  generalize scope.resolutionPrefixes = folders at alike
  induction folders with
  | nil => rfl
  | cons folder folders ih =>
    obtain ⟨here_alike, others_alike⟩ := List.forall_mem_cons.mp alike
    have read := readSource?_spelled same here_alike
    -- a candidate is joined to the root with its prefix, not with the two joined before
    rw [← Path.join_assoc, ← Path.join_assoc] at read
    rw [List.map_cons, List.map_cons, List.findSome?_cons, List.findSome?_cons, read]
    cases readSource? system (Path.join (Path.join second folder) name) with
    | none => exact ih others_alike
    | some content => rfl

/-- What is reported of a frame depends only on the text that is found for it. -/
theorem reportResult_analyzeFrame_congr {frame : Frame}
    (found : (locate system scope first frame.filename).map (·.2) =
      (locate system scope second frame.filename).map (·.2)) :
    reportResult (analyzeFrame system scope first frame) =
      reportResult (analyzeFrame system scope second frame) := by
  cases first_found : locate system scope first frame.filename with
  | none =>
    rw [first_found] at found
    have second_found := Option.map_eq_none_iff.mp found.symm
    rw [analyzeFrame_of_locate_none first_found, analyzeFrame_of_locate_none second_found]
  | some file =>
    obtain ⟨path, content⟩ := file
    rw [first_found] at found
    obtain ⟨⟨other, text⟩, second_found, same_text⟩ := Option.map_eq_some_iff.mp found.symm
    obtain rfl : text = content := same_text
    rw [analyzeFrame, analyzeFrame, first_found, second_found]
    -- the windows differ in their path, which is not shown
    by_cases outside : frame.line - 1 < 0 ∨
      ((Text.contentLines text).length : Int) ≤ frame.line - 1
    · simp only [windowAround, if_pos outside]
      rfl
    · simp only [windowAround, if_neg outside]
      rfl

theorem reportResult_analyzeFrameInTime_congr {frame : Frame} (late : Bool)
    (found : (locate system scope first frame.filename).map (·.2) =
      (locate system scope second frame.filename).map (·.2)) :
    reportResult (analyzeFrameInTime system scope first late frame) =
      reportResult (analyzeFrameInTime system scope second late frame) := by
  rw [analyzeFrameInTime, analyzeFrameInTime]
  split
  · rfl
  · exact reportResult_analyzeFrame_congr found

/-- A report depends on its frames and on what is reported of the results. -/
theorem reportTrace_congr {frames : List Frame} {results others : List FrameAnalysis}
    (same : results.map reportResult = others.map reportResult) :
    reportTrace ⟨frames, results⟩ = reportTrace ⟨frames, others⟩ := by
  have sections := congrArg (List.map (· ++ "\n")) same
  rw [List.map_map, List.map_map] at sections
  rw [reportTrace, reportTrace]
  exact congrArg (fun sections => if !frames.isEmpty then _ ++ String.join sections else _) sections

/-- A report on a trace is made of its frames and of what is reported of the first of them. -/
theorem traceReport_eq_ok {frames : List Frame}
    (parsed : parseTrace TraceRule.all trace = .ok frames) (late : Nat → Bool) :
    traceReport system scope root trace late = .ok (reportTrace ⟨frames,
      analyzeFrames system scope root late (takeUpTo scope.maxFrames frames)⟩) := by
  rw [traceReport, analyzeTrace_eq_ok_iff.mpr ⟨frames, parsed, rfl⟩]
  rfl

theorem traceReport_of_error {fault : Text.NumeralTooLong}
    (parsed : parseTrace TraceRule.all trace = .error fault) (late : Nat → Bool) :
    traceReport system scope root trace late = .error fault := by
  rw [traceReport, analyzeTrace, parsed]
  rfl

theorem traceReport_spelled (same : SameFolder system first second here directory)
    (alike : SpelledAlike system scope trace first second directory) (late : Nat → Bool) :
    traceReport system scope first trace late = traceReport system scope second trace late := by
  cases parsed : parseTrace TraceRule.all trace with
  | error fault => rw [traceReport_of_error parsed, traceReport_of_error parsed]
  | ok frames =>
    rw [traceReport_eq_ok parsed, traceReport_eq_ok parsed]
    have results : (analyzeFrames system scope first late (takeUpTo scope.maxFrames frames)).map
        reportResult = (analyzeFrames system scope second late
          (takeUpTo scope.maxFrames frames)).map reportResult := by
      apply List.ext_getElem
      · simp [analyzeFrames]
      · intro number _ inside
        simp only [analyzeFrames, List.getElem_map, List.getElem_mapIdx]
        exact reportResult_analyzeFrameInTime_congr _ (locate_spelled same
          (alike.candidates frames parsed _ (List.getElem_mem _)))
    rw [reportTrace_congr results]

/-- Where it does not matter how long frames take, there is one report on a trace. -/
theorem traceReport_eq_of_settled
    (settled : scope.frameTimeout = none ∨ scope.allowsNoTime = true) (late late' : Nat → Bool) :
    traceReport system scope root trace late = traceReport system scope root trace late' := by
  cases parsed : parseTrace TraceRule.all trace with
  | error fault => rw [traceReport_of_error parsed, traceReport_of_error parsed]
  | ok frames =>
    rw [traceReport_eq_ok parsed, traceReport_eq_ok parsed,
      analyzeFrames_eq_of_settled settled late late']

/-! ## All answers -/

/-- Roots that denote the same directory have the same answers, however they are spelled, as long
as the same paths are too long behind both. -/
theorem sameAnswers_of_sameFolder (same : SameFolder system first second here directory)
    (alike : SpelledAlike system scope trace first second directory) :
    SameAnswers system scope trace first second := by
  have valid : isValidName ignoreFileName = true := by decide
  -- the rules are read once, and the rest of the answers follows from them and the directory
  have same_rules := same.readBytes_child valid alike.ignoreFile
  exact {
    scan := scan_spelled same alike
    listedFiles := by
      rw [listedFiles_eq same.entries?, listedFiles_eq same.symm.entries?, same_rules]
      simp only [listing_spelled same alike]
    codebaseReport := by
      rw [codebaseReport_eq same.ne_empty same.entries?,
        codebaseReport_eq same.symm.ne_empty same.symm.entries?, same_rules]
      simp only [sourceTexts_spelled same alike]
    traceReport := traceReport_spelled same alike
    settledReport := fun settled late late' =>
      (traceReport_spelled same alike late).trans (traceReport_eq_of_settled settled late late') }

theorem find?_nestedCodebase {names : List String} {node : Node}
    (found : nestedCodebase.find? names = some node) (nonempty : names ≠ []) :
    names = ["sub"] ∨ names = ["sub", "a.rb"] := by
  obtain ⟨first, rest, rfl⟩ := List.exists_cons_of_ne_nil nonempty
  rw [nestedCodebase, Directory.find?, Directory.lookup] at found
  by_cases in_sub : "sub" = first
  · subst in_sub
    cases rest with
    | nil => exact .inl rfl
    | cons second rest =>
      rw [if_pos rfl] at found
      simp only [Directory.find?, Directory.lookup] at found
      by_cases is_file : "a.rb" = second
      · subst is_file
        cases rest with
        | nil => exact .inr rfl
        | cons third rest => simp at found
      · simp [is_file] at found
  · simp [in_sub, Directory.lookup] at found

/-- The root of the nested codebase with a dot, a slash too much and a detour. -/
theorem sameFolder_nestedSystem :
    SameFolder nestedSystem "repo" "./repo//sub/../" ["repo"] nestedCodebase where
  first_resolved := by decide
  second_resolved := by decide
  isFolder := by decide

theorem spelledAlike_nestedSystem :
    SpelledAlike nestedSystem {} "sub/a.rb:1" "repo" "./repo//sub/../" nestedCodebase where
  entries := by
    intro names node found nonempty
    rcases find?_nestedCodebase found nonempty with rfl | rfl <;> decide
  ignoreFile := by decide
  candidates := by
    intro frames parsed frame taken folder listed
    have one_frame : parseTrace TraceRule.all "sub/a.rb:1" =
        .ok [{ filename := "a.rb", line := 1 }] := by
      decide
    obtain rfl := Except.ok.inj (one_frame.symm.trans parsed)
    obtain rfl := List.mem_singleton.mp taken
    have one_of_three : folder = "" ∨ folder = "src" ∨ folder = "app" := by simpa using listed
    rcases one_of_three with rfl | rfl | rfl <;> exact ⟨fun _ => by decide, fun _ => by decide⟩

theorem sameAnswers_of_sameFolder_nestedSystem :
    SameFolder nestedSystem "repo" "./repo//sub/../" ["repo"] nestedCodebase ∧
      SpelledAlike nestedSystem {} "sub/a.rb:1" "repo" "./repo//sub/../" nestedCodebase ∧
      SameAnswers nestedSystem {} "sub/a.rb:1" "repo" "./repo//sub/../" :=
  ⟨sameFolder_nestedSystem, spelledAlike_nestedSystem,
    sameAnswers_of_sameFolder sameFolder_nestedSystem spelledAlike_nestedSystem⟩

/-- Not every two roots that denote the same directory have the same answers: behind one with so
many slashes that no directory below it can be followed, a source is not listed. -/
theorem not_forall_sameAnswers :
    ¬ ∀ (system : FileSystem) (scope : Scope) (trace first second : String) (here : List String)
      (directory : Directory), SameFolder system first second here directory →
      SameAnswers system scope trace first second := by
  intro all
  have resolved : nestedSystem.resolve "repo" = .ok ["repo"] := by decide
  have isFolder : nestedSystem.node? ["repo"] = some (.folder nestedCodebase) := by decide
  have same : SameFolder nestedSystem "repo" ("repo" ++ Path.slashes 4090) ["repo"]
      nestedCodebase := {
    first_resolved := resolved
    second_resolved :=
      FileSystem.resolve_append_slashes (by decide) (by decide) resolved isFolder
    isFolder }
  have answers := (all _ {} "" _ _ _ _ same).scan { root := "repo" }
  rw [scan_of_entries? same.entries?, scan_nestedSystem_slashes, Except.ok.injEq,
    Scan.mk.injEq] at answers
  -- behind the short spelling the only source is listed
  have reachable : IsReachable "repo" ["sub"] := by
    intro above initial nonempty
    rcases List.prefix_cons_iff.mp initial with none | ⟨tail, rfl, last⟩
    · exact absurd none nonempty
    · rw [List.prefix_nil.mp last]
      decide
  have listed : "sub/a.rb" ∈ (sourcesOf {} "repo" { root := "repo" } nestedCodebase).map (·.path) :=
    (mem_map_path_sourcesOf (by decide)).mpr
      ⟨["sub"], "a.rb", by decide, isEligible_nestedCodebase, reachable⟩
  rw [answers.1] at listed
  exact List.not_mem_nil listed

end TraceInquest
