import TraceInquest.Proofs.Codebase.Unreadable
import TraceInquest.Proofs.FileSystem.Changed
import TraceInquest.Proofs.Text.Blocks
import TraceInquest.Report.Codebase
import TraceInquest.Report.Trace

/-! # Codebases with newlines of two characters

Whether the lines of all files end with a line feed, or with a carriage return and a line feed,
makes no difference for what is found in a codebase: neither for its sources nor for files that are
no texts. For its ignore file there is one exception. Its lines are parsed while it is read block by
block, so where the file is no text, it depends on the number of bytes in front whether a bad line
is met before that is found out.

* **`FileSystem.addReturns`** — the same tree with a carriage return in front of every line feed.
* **`readText_addReturns`** — what is read from it.
* **`scan_mapFiles`** — a scan does not look into files.
* **`HasEarlyFault`** — whether an ignore file is the exception; **`loadIgnoreContext_addReturns`**
  and **`loadIgnoreContext_of_hasEarlyFault`** — the ignore rules without and with it.
* **`answers_addReturns`** — the analyses and the reports are the same.
* **`not_forall_answers_addReturns`** — but for the exception: with carriage returns a bad line can
  be a fault that it is not without them. -/

namespace TraceInquest

/-! ## Listing files -/

section Listing

variable (change : List UInt8 → List UInt8)

theorem WalkFilter.below_mapFiles (filter : WalkFilter) (here : List String)
    (directory : Directory) :
    filter.below here (directory.mapFiles change) = filter.below here directory := by
  induction directory generalizing here with
  | empty => rfl
  | file name bytes others ih => exact ih here
  | folder name entries others ih_entries ih =>
    rw [Directory.mapFiles, below, below, ih, ih_entries, sourcesIn, sourcesIn,
      Directory.fileNames_mapFiles]

/-- A walk lists files whatever they hold. -/
theorem WalkFilter.walk_mapFiles (filter : WalkFilter) (here : List String)
    (directory : Directory) :
    filter.walk here (directory.mapFiles change) = filter.walk here directory := by
  rw [walk, walk, below_mapFiles, sourcesIn, sourcesIn, Directory.fileNames_mapFiles]

/-- A scan lists files whatever they hold, as long as the ignore rules stay the same. -/
theorem scan_mapFiles (system : FileSystem) (scope : Scope) (root : String)
    (context : IgnoreContext) :
    scan (system.mapFiles change) scope root context = scan system scope root context := by
  rw [scan, scan, FileSystem.entries?_mapFiles]
  cases system.entries? root with
  | none => rfl
  | some directory =>
    simp only [Option.map_some, sourcesOf, WalkFilter.walk_mapFiles]

end Listing

/-! ## Reading files -/

/-- The file system with a carriage return in front of every line feed in its files. -/
def FileSystem.addReturns (system : FileSystem) : FileSystem :=
  system.mapFiles (Text.addReturns 0x0D 0x0A)

/-- Whether no file holds a carriage return. -/
def FileSystem.IsReturnless (system : FileSystem) : Prop :=
  ∀ bytes ∈ system.root.contents, 0x0D ∉ bytes

instance (system : FileSystem) : Decidable system.IsReturnless :=
  inferInstanceAs (Decidable (∀ bytes ∈ system.root.contents, 0x0D ∉ bytes))

variable {system : FileSystem}

theorem readBytes_addReturns (path : String) : system.addReturns.readBytes path =
    (system.readBytes path).map (Text.addReturns 0x0D 0x0A) :=
  system.readBytes_mapFiles _ path

/-- What is read is the same, unless there is no text to read before and after. -/
theorem readText_addReturns (returnless : system.IsReturnless) (path : String) :
    system.addReturns.readText path = system.readText path ∨
      ∃ fault fault', system.readText path = .error (.undecodable fault) ∧
        system.addReturns.readText path = .error (.undecodable fault') := by
  rw [FileSystem.readText, FileSystem.readText, readBytes_addReturns]
  cases read : system.readBytes path with
  | error fault => exact .inl rfl
  | ok bytes =>
    have absent : 0x0D ∉ bytes := returnless bytes (system.mem_contents_of_readBytes read)
    simp only [Except.map]
    -- bytes spell a text before exactly if they do after
    cases spelled : textOfBytes bytes with
    | ok text =>
      rw [(textOfBytes_addReturns absent).mpr spelled]
      exact .inl rfl
    | error fault =>
      cases changed : textOfBytes (Text.addReturns 0x0D 0x0A bytes) with
      | ok text =>
        rw [(textOfBytes_addReturns absent).mp changed] at spelled
        cases spelled
      | error fault' => exact .inr ⟨fault, fault', rfl, rfl⟩

theorem readSource?_addReturns (returnless : system.IsReturnless) (path : String) :
    readSource? system.addReturns path = readSource? system path := by
  rw [readSource?, readSource?]
  rcases readText_addReturns returnless path with same | ⟨fault, fault', read, read'⟩
  · rw [same]
  · rw [read, read']
    rfl

/-! ## Ignore files -/

/-- Whether the ignore file of a codebase is no text, but begins with lines of which one is bad, and
what is wrong with the first that is. -/
def HasEarlyFault (system : FileSystem) (root : String) (fault : IgnoreFault) : Prop :=
  ∃ bytes lines,
    system.readBytes ((Location.ofPath root).child ignoreFileName).text = .ok bytes ∧
      ¬Text.Utf8.IsUtf8 bytes ∧ Text.StartsWithLines bytes lines ∧
      parseRules lines = .error fault

theorem not_hasEarlyFault_of_isUtf8 {root : String} {bytes : List UInt8}
    (read : system.readBytes ((Location.ofPath root).child ignoreFileName).text = .ok bytes)
    (isUtf8 : Text.Utf8.IsUtf8 bytes) (fault : IgnoreFault) : ¬HasEarlyFault system root fault := by
  rintro ⟨other, lines, other_read, no_text, -⟩
  obtain rfl := Except.ok.inj (read.symm.trans other_read)
  exact no_text isUtf8

/-- The first bad line is that of every longer list. -/
theorem parseRules_of_isPrefix {lines others : List (List Char)} {fault : IgnoreFault}
    (initial : lines <+: others) (failed : parseRules lines = .error fault) :
    parseRules others = .error fault := by
  obtain ⟨behind, rfl⟩ := initial
  rw [parseRules, except_map_eq_error, except_mapM_eq_error] at failed ⊢
  obtain ⟨before, line, after, rfl, others_parsed, line_failed⟩ := failed
  exact ⟨before, line, after ++ behind, by simp, others_parsed, line_failed⟩

/-- Whichever beginning of an ignore file is read, there is one first bad line. -/
theorem fault_unique {bytes : List UInt8} (absent : 0x0D ∉ bytes) {lines others : List (List Char)}
    (starts : Text.StartsWithLines bytes lines) (others_start : Text.StartsWithLines bytes others)
    {fault fault' : IgnoreFault} (failed : parseRules lines = .error fault)
    (others_failed : parseRules others = .error fault') : fault' = fault := by
  rcases starts.isPrefix_or_isPrefix absent others_start with shorter | longer
  · rw [parseRules_of_isPrefix shorter failed] at others_failed
    exact (Except.error.inj others_failed).symm
  · rw [parseRules_of_isPrefix longer others_failed] at failed
    exact Except.error.inj failed

theorem loadIgnoreContext_of_readBytes {root : String} {bytes : List UInt8}
    (read : system.readBytes ((Location.ofPath root).child ignoreFileName).text = .ok bytes) :
    loadIgnoreContext system root =
      ((parseRules (Text.readLines Text.blockSize bytes).lines).mapError .ignore).map fun rules =>
        { root, rules? :=
            if (Text.readLines Text.blockSize bytes).whole then some rules else none } := by
  unfold loadIgnoreContext
  dsimp only
  rw [read]

/-- Of an ignore file that is no text, a bad line may be met before that is noticed; without one the
file holds no rules. -/
theorem loadIgnoreContext_of_not_isUtf8 {root : String} {bytes : List UInt8}
    (read : system.readBytes ((Location.ofPath root).child ignoreFileName).text = .ok bytes)
    (no_text : ¬Text.Utf8.IsUtf8 bytes) :
    ∃ lines, Text.StartsWithLines bytes lines ∧
      (∀ fault, parseRules lines = .error fault →
        loadIgnoreContext system root = .error (.ignore fault)) ∧
      ∀ rules, parseRules lines = .ok rules → loadIgnoreContext system root = .ok { root } := by
  obtain ⟨starts, cut⟩ := Text.startsWithLines_readLines (show 0 < Text.blockSize by decide) no_text
  rw [loadIgnoreContext_of_readBytes read, cut]
  refine ⟨_, starts, fun fault failed => ?_, fun rules parsed => ?_⟩
  · rw [failed]
    rfl
  · rw [parsed]
    rfl

/-- With carriage returns or without, lines are read that the ignore file begins with. -/
theorem loadIgnoreContext_of_mem (returnless : system.IsReturnless) {root : String}
    {bytes : List UInt8}
    (read : system.readBytes ((Location.ofPath root).child ignoreFileName).text = .ok bytes)
    (no_text : ¬Text.Utf8.IsUtf8 bytes) {tree : FileSystem}
    (mem : tree ∈ [system, system.addReturns]) :
    ∃ lines, Text.StartsWithLines bytes lines ∧
      (∀ fault, parseRules lines = .error fault →
        loadIgnoreContext tree root = .error (.ignore fault)) ∧
      ∀ rules, parseRules lines = .ok rules → loadIgnoreContext tree root = .ok { root } := by
  have absent : 0x0D ∉ bytes := returnless bytes (system.mem_contents_of_readBytes read)
  simp only [List.mem_cons, List.not_mem_nil, or_false] at mem
  rcases mem with rfl | rfl
  · exact loadIgnoreContext_of_not_isUtf8 read no_text
  · have changed_read : system.addReturns.readBytes
        ((Location.ofPath root).child ignoreFileName).text =
          .ok (Text.addReturns 0x0D 0x0A bytes) := by
      rw [readBytes_addReturns, read]
      rfl
    obtain ⟨lines, starts, outcomes⟩ := loadIgnoreContext_of_not_isUtf8 changed_read
      (mt (Text.Utf8.isUtf8_addReturns_iff absent).mp no_text)
    exact ⟨lines, starts.of_addReturns absent, outcomes⟩

/-- Where an ignore file that is no text begins with a bad line, the line is a fault, or there are
no rules. -/
theorem loadIgnoreContext_of_hasEarlyFault (returnless : system.IsReturnless) {root : String}
    {fault : IgnoreFault} (early : HasEarlyFault system root fault) {tree : FileSystem}
    (mem : tree ∈ [system, system.addReturns]) :
    loadIgnoreContext tree root = .error (.ignore fault) ∨
      loadIgnoreContext tree root = .ok { root } := by
  obtain ⟨bytes, others, read, no_text, others_start, failed⟩ := early
  have absent : 0x0D ∉ bytes := returnless bytes (system.mem_contents_of_readBytes read)
  obtain ⟨lines, starts, faulty, ruleless⟩ :=
    loadIgnoreContext_of_mem returnless read no_text mem
  cases parsed : parseRules lines with
  | error fault' =>
    obtain rfl := fault_unique absent others_start starts failed parsed
    exact .inl (faulty _ parsed)
  | ok rules => exact .inr (ruleless rules parsed)

/-- The ignore rules stay the same, unless the ignore file is no text and begins with a bad line. -/
theorem loadIgnoreContext_addReturns (returnless : system.IsReturnless) {root : String}
    (no_early : ∀ fault, ¬HasEarlyFault system root fault) :
    loadIgnoreContext system.addReturns root = loadIgnoreContext system root := by
  have changed := @readBytes_addReturns system ((Location.ofPath root).child ignoreFileName).text
  cases read : system.readBytes ((Location.ofPath root).child ignoreFileName).text with
  | error fault =>
    rw [read] at changed
    unfold loadIgnoreContext
    dsimp only
    rw [changed, read]
    rfl
  | ok bytes =>
    have absent : 0x0D ∉ bytes := returnless bytes (system.mem_contents_of_readBytes read)
    by_cases isUtf8 : Text.Utf8.IsUtf8 bytes
    · rw [read] at changed
      rw [loadIgnoreContext_of_readBytes changed, loadIgnoreContext_of_readBytes read,
        Text.readLines_addReturns (by decide) absent isUtf8]
    · -- no line is bad, so that both hold no rules
      have ruleless {tree : FileSystem} (mem : tree ∈ [system, system.addReturns]) :
          loadIgnoreContext tree root = .ok { root } := by
        obtain ⟨lines, starts, -, ruleless⟩ :=
          loadIgnoreContext_of_mem returnless read isUtf8 mem
        cases parsed : parseRules lines with
        | error fault => exact absurd ⟨bytes, lines, read, isUtf8, starts, parsed⟩ (no_early fault)
        | ok rules => exact ruleless rules parsed
      rw [ruleless (by simp), ruleless (by simp)]

/-! ## Analyses -/

theorem analyzeFrameInTime_addReturns (returnless : system.IsReturnless) (scope : Scope)
    (root : String) (late : Bool) (frame : Frame) :
    analyzeFrameInTime system.addReturns scope root late frame =
      analyzeFrameInTime system scope root late frame := by
  simp only [analyzeFrameInTime, analyzeFrame, locate, readSource?_addReturns returnless]

theorem analyzeTrace_addReturns (returnless : system.IsReturnless) (scope : Scope)
    (root trace : String) (late : Nat → Bool) :
    analyzeTrace system.addReturns scope root trace late =
      analyzeTrace system scope root trace late := by
  simp only [analyzeTrace, analyzeFrameInTime_addReturns returnless]

theorem analyzeFile_addReturns (returnless : system.IsReturnless) (scope : Scope) (path : String)
    (targetLine? radius? : Option Int) :
    analyzeFile system.addReturns scope path targetLine? radius? =
      analyzeFile system scope path targetLine? radius? := by
  rw [analyzeFile, analyzeFile, readSource?_addReturns returnless]

theorem analyzeSources_addReturns (returnless : system.IsReturnless) (scope : Scope)
    (root : String) (context : IgnoreContext) :
    analyzeSources system.addReturns scope root context =
      analyzeSources system scope root context := by
  have scanned : scan system.addReturns scope root context = scan system scope root context :=
    scan_mapFiles _ system scope root context
  simp only [analyzeSources, scanned, analyzeFile_addReturns returnless]

/-- If no file holds a carriage return, putting one in front of every line feed in every file
changes nothing about the analysis of a trace, the analysis of the codebase, or why there is none,
and the reports on them, as long as the ignore file is not one that is no text and begins with a bad
line. There the bad line is a fault, or the codebase is analysed without ignore rules; which of the
two can differ, as it depends on how many bytes stand in front of the place where the file stops
being a text. -/
theorem answers_addReturns (returnless : system.IsReturnless) (scope : Scope)
    (root trace : String) :
    (∀ late, analyzeTrace system.addReturns scope root trace late =
        analyzeTrace system scope root trace late ∧
      (analyzeTrace system.addReturns scope root trace late).map reportTrace =
        (analyzeTrace system scope root trace late).map reportTrace) ∧
      ((∀ fault, ¬HasEarlyFault system root fault) →
        analyzeCodebase system.addReturns scope root = analyzeCodebase system scope root ∧
          ((analyzeCodebase system.addReturns scope root).map fun codebase =>
              reportCodebase system.addReturns.working root codebase.analyses) =
            (analyzeCodebase system scope root).map fun codebase =>
              reportCodebase system.working root codebase.analyses) ∧
      ∀ fault, HasEarlyFault system root fault → ∀ tree ∈ [system, system.addReturns],
        analyzeCodebase tree scope root = .error (.ignore fault) ∨
          analyzeCodebase tree scope root = analyzeSources system scope root { root } := by
  refine ⟨fun late => ?_, fun no_early => ?_, fun fault early tree mem => ?_⟩
  · have same_trace := analyzeTrace_addReturns returnless scope root trace late
    exact ⟨same_trace, congrArg _ same_trace⟩
  · have same_codebase : analyzeCodebase system.addReturns scope root =
        analyzeCodebase system scope root := by
      rw [analyzeCodebase, analyzeCodebase, loadIgnoreContext_addReturns returnless no_early]
      simp only [analyzeSources_addReturns returnless]
    refine ⟨same_codebase, ?_⟩
    rw [same_codebase]
    rfl
  · have same_sources : analyzeSources tree scope root { root } =
        analyzeSources system scope root { root } := by
      simp only [List.mem_cons, List.not_mem_nil, or_false] at mem
      rcases mem with rfl | rfl
      · rfl
      · exact analyzeSources_addReturns returnless scope root { root }
    rw [analyzeCodebase, ← same_sources]
    refine (loadIgnoreContext_of_hasEarlyFault returnless early mem).imp ?_ ?_
    · intro faulty
      rw [faulty]
      rfl
    · intro ruleless
      rw [ruleless, except_ok_bind]

/-- A file system with a codebase that has an ignore file, a source of two lines, and a source
that is no text. -/
def lineFeedSystem : FileSystem where
  root := .folder "repo"
    (.file ".gitignore" [0x74, 0x2F, 0x0A]
      (.file "a.rb" [0x78, 0x0A, 0x79, 0x0A] (.file "b.rb" [0xFF, 0x0A] .empty))) .empty
  working := []

theorem answers_addReturns_lineFeedSystem :
    lineFeedSystem.IsReturnless ∧
      lineFeedSystem.addReturns.readBytes "repo/a.rb" =
        .ok [0x78, 0x0D, 0x0A, 0x79, 0x0D, 0x0A] ∧
      (∀ fault, ¬HasEarlyFault lineFeedSystem "repo" fault) ∧
      analyzeTrace lineFeedSystem.addReturns {} "repo" "a.rb:2" =
        analyzeTrace lineFeedSystem {} "repo" "a.rb:2" ∧
      analyzeCodebase lineFeedSystem.addReturns {} "repo" =
        analyzeCodebase lineFeedSystem {} "repo" := by
  have returnless : lineFeedSystem.IsReturnless := by decide
  have read : lineFeedSystem.readBytes ((Location.ofPath "repo").child ignoreFileName).text =
      .ok [0x74, 0x2F, 0x0A] := by
    decide
  have isUtf8 : Text.Utf8.IsUtf8 [0x74, 0x2F, 0x0A] :=
    ⟨['t', '/', '\n'], Text.Utf8.decode_eq_ok_iff.mp (by decide)⟩
  have no_early := not_hasEarlyFault_of_isUtf8 read isUtf8
  obtain ⟨same_trace, same_codebase, -⟩ := answers_addReturns returnless {} "repo" "a.rb:2"
  exact ⟨returnless, by decide, no_early, (same_trace _).1, (same_codebase no_early).1⟩

/-! ## A bad line in front of a byte that ends the text -/

/-- The bytes of a bad line and some empty ones. -/
def badLineBytes (count : Nat) : List UInt8 := [0x66, 0x6F, 0x6F, 0x5C] ++ List.replicate count 0x0A

theorem encodes_replicate (count : Nat) :
    Text.Utf8.Encodes (List.replicate count 0x0A) (List.replicate count '\n') := by
  induction count with
  | zero => exact .nil
  | succ count ih =>
    rw [List.replicate_succ, List.replicate_succ]
    exact .cons (@Text.Utf8.EncodesChar.one 0x0A (by decide)) ih

theorem encodes_badLineBytes (count : Nat) :
    Text.Utf8.Encodes (badLineBytes count)
      (['f', 'o', 'o', '\\'] ++ List.replicate count '\n') :=
  Text.Utf8.Encodes.append (Text.Utf8.decode_eq_ok_iff.mp (by decide)) (encodes_replicate count)

theorem length_badLineBytes (count : Nat) : (badLineBytes count).length = count + 4 := by
  simp [badLineBytes]

theorem not_mem_badLineBytes (count : Nat) : 0x0D ∉ badLineBytes count := by
  simp [badLineBytes, List.mem_replicate]

/-- A file system with a codebase whose ignore file begins with a bad line and is no text. -/
def badLineSystem : FileSystem where
  root := .folder "repo" (.file ".gitignore" (badLineBytes 5000 ++ [0xFF])
    (.file "a.rb" [0x78, 0x0A] .empty)) .empty
  working := []

theorem isReturnless_badLineSystem : badLineSystem.IsReturnless := by
  intro bytes mem
  simp only [badLineSystem, Directory.contents, List.append_nil, List.mem_cons, List.not_mem_nil,
    or_false] at mem
  rcases mem with rfl | rfl
  · rw [List.mem_append, not_or]
    exact ⟨not_mem_badLineBytes _, by decide⟩
  · decide

theorem readBytes_badLineSystem :
    badLineSystem.readBytes ((Location.ofPath "repo").child ignoreFileName).text =
      .ok (badLineBytes 5000 ++ [0xFF]) := by
  rfl

/-- All bytes come in one block, so that the file is found not to be a text before a line is
read. -/
theorem loadIgnoreContext_badLineSystem :
    loadIgnoreContext badLineSystem "repo" = .ok { root := "repo" } := by
  have short : (badLineBytes 5000 ++ [0xFF]).length < Text.blockSize := by
    rw [List.length_append, length_badLineBytes, Text.blockSize]
    decide
  rw [loadIgnoreContext_of_readBytes readBytes_badLineSystem,
    Text.readLines_append_invalid (encodes_badLineBytes 5000) short]
  rfl

/-- A line that ends with a backslash is bad. -/
theorem parseRule_badLine :
    parseRule ['f', 'o', 'o', '\\', '\n'] = .error (.invalidLine "foo\\\n") := by
  have trimmed : IgnoreRule.trimLine ['f', 'o', 'o', '\\', '\n'] = ['f', 'o', 'o', '\\'] := by
    decide
  have segments : IgnoreRule.collapse (IgnoreRule.openEnd (IgnoreRule.anchor
      (IgnoreRule.splitSegments ['f', 'o', 'o', '\\']))) = [['*', '*'], ['f', 'o', 'o', '\\']] := by
    decide
  have dangling : Glob.tokens ['f', 'o', 'o', '\\'] = .error .danglingEscape := by
    simp [Glob.tokens, Except.map]
  have read : [['*', '*'], ['f', 'o', 'o', '\\']].mapM IgnoreRule.readSegment =
      .error .danglingEscape := by
    simp [IgnoreRule.readSegment, IgnoreRule.starStar, dangling]
    rfl
  have failed : IgnoreRule.rulePattern ['f', 'o', 'o', '\\', '\n'] ['f', 'o', 'o', '\\'] =
      .error (.invalidLine "foo\\\n") := by
    simp only [IgnoreRule.rulePattern, segments, read]
    rfl
  rw [parseRule, trimmed]
  show (IgnoreRule.rulePattern _ ['f', 'o', 'o', '\\']).map _ = _
  rw [failed]
  rfl

/-- With the carriage returns the bad line comes in a block of its own, and it is read before the
file is found not to be a text. -/
theorem loadIgnoreContext_addReturns_badLineSystem :
    loadIgnoreContext badLineSystem.addReturns "repo" =
      .error (.ignore (.invalidLine "foo\\\n")) := by
  have split : Text.addReturns 0x0D 0x0A (badLineBytes 5000 ++ [0xFF]) =
      Text.addReturns 0x0D 0x0A (badLineBytes 4094) ++
        (Text.addReturns 0x0D 0x0A (List.replicate 906 0x0A) ++ [0xFF]) := by
    rw [badLineBytes, badLineBytes, show 5000 = 4094 + 906 from rfl, List.replicate_add]
    simp only [Text.addReturns, List.flatMap_append, List.append_assoc]
    rfl
  have fills : (Text.addReturns 0x0D 0x0A (badLineBytes 4094)).length = Text.blockSize := by
    rw [Text.length_addReturns, length_badLineBytes, badLineBytes, List.count_append,
      List.count_replicate_self]
    rfl
  have short : (Text.addReturns 0x0D 0x0A (List.replicate 906 (0x0A : UInt8)) ++ [0xFF]).length <
      Text.blockSize := by
    rw [List.length_append, Text.length_addReturns, List.length_replicate,
      List.count_replicate_self]
    decide
  have absent : '\r' ∉ ['f', 'o', 'o', '\\'] ++ List.replicate 4094 '\n' :=
    Text.Utf8.not_mem_of_encodes (encodes_badLineBytes 4094) (not_mem_badLineBytes 4094)
  have bad : parseRules [['f', 'o', 'o', '\\', '\n']] = .error (.invalidLine "foo\\\n") := by
    rw [parseRules, except_map_eq_error, except_mapM_eq_error]
    exact ⟨[], _, [], rfl, by simp, parseRule_badLine⟩
  have begins : [['f', 'o', 'o', '\\', '\n']] <+:
      Text.completeLines (['f', 'o', 'o', '\\'] ++ List.replicate 4094 '\n') := by
    rw [Text.completeLines_of_not_mem absent, List.replicate_succ, Text.upToLastFeed_append,
      (Text.terminatedLines_append _ _).2]
    exact List.prefix_append _ _
  have changed_read : badLineSystem.addReturns.readBytes
      ((Location.ofPath "repo").child ignoreFileName).text =
        .ok (Text.addReturns 0x0D 0x0A (badLineBytes 4094) ++
          (Text.addReturns 0x0D 0x0A (List.replicate 906 0x0A) ++ [0xFF])) := by
    rw [readBytes_addReturns, readBytes_badLineSystem, ← split]
    rfl
  rw [loadIgnoreContext_of_readBytes changed_read, Text.readLines_append_append_invalid fills
      (Text.Utf8.encodes_addReturns (encodes_badLineBytes 4094))
      (Text.Utf8.encodes_addReturns (encodes_replicate 906)) short,
    (Text.completeLines_addReturns absent).1, parseRules_of_isPrefix begins bad]
  rfl

/-- Newlines are not all the same: in front of a byte that is no text, carriage returns decide
whether a bad line of the ignore file is a fault. -/
theorem not_forall_answers_addReturns :
    ¬ ∀ (system : FileSystem) (scope : Scope) (root trace : String), system.IsReturnless →
      (∀ late, analyzeTrace system.addReturns scope root trace late =
          analyzeTrace system scope root trace late) ∧
        analyzeCodebase system.addReturns scope root = analyzeCodebase system scope root := by
  intro all
  have same := (all badLineSystem {} "repo" "" isReturnless_badLineSystem).2
  rw [analyzeCodebase, analyzeCodebase, loadIgnoreContext_addReturns_badLineSystem,
    loadIgnoreContext_badLineSystem, except_ok_bind] at same
  obtain ⟨listing, scanned⟩ : ∃ listing,
      scan badLineSystem {} "repo" { root := "repo" } = .ok listing := ⟨_, rfl⟩
  rw [analyzeSources_eq_ok scanned (hasNul_of_mem_files scanned)] at same
  cases same

end TraceInquest
