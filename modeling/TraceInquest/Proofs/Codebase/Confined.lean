import TraceInquest.Proofs.Codebase.Analysis
import TraceInquest.Proofs.FileSystem.Entry
import TraceInquest.Proofs.Trace.Lines

/-! # What a trace can make an investigation read

A frame names a file by a single name, which is looked up in the directories that the scope lists.
Whatever a trace says, only files of these directories are read: not one below them, beside them
or above them.

* **`LiesInScope`** — whether a path denotes the file of a name in one of the directories.
* **`readSource?_join_congr`** — what is read behind the path of a directory depends only on the
  files in it.
* **`analyzeTrace_confined`** — the paths of an analysis and of all files that are read for it lie
  in these directories, and files elsewhere make no difference. -/

namespace TraceInquest

/-- Whether a path denotes a file of a name that is an entry of one of the directories in which
the files of frames are looked for. -/
structure LiesInScope (system : FileSystem) (scope : Scope) (root name path : String) : Prop where
  slashless : '/' ∉ name.toList
  backslashless : '\\' ∉ name.toList
  properName : name ∉ ["", ".", ".."]
  isEntry : ∃ folder ∈ scope.resolutionPrefixes, ∃ bytes,
    path = Path.join (Path.join root folder) name ∧
      system.fileIn? (Path.join root folder) name = some bytes ∧
      system.get path = .ok (.file bytes)

/-- Whether two file systems have the same files in the directories in which the files of frames
are looked for. -/
def AgreeInScope (scope : Scope) (root : String) (system other : FileSystem) : Prop :=
  ∀ folder ∈ scope.resolutionPrefixes, ∀ name,
    system.fileIn? (Path.join root folder) name = other.fileIn? (Path.join root folder) name

variable {system other : FileSystem} {scope : Scope} {root name : String}

/-! ## Reading a candidate -/

/-- What is read where a path is joined with a name depends only on the file of that name in the
directory at the path. -/
theorem readSource?_join_congr {base : String} (slashless : '/' ∉ name.toList)
    (same : system.fileIn? base name = other.fileIn? base name) :
    readSource? system (Path.join base name) = readSource? other (Path.join base name) := by
  ext content
  simp only [readSource?_eq_some_iff, FileSystem.readText_eq_ok_iff,
    FileSystem.readBytes_join_eq_ok_iff slashless, same]

theorem locate_congr (agree : AgreeInScope scope root system other)
    (slashless : '/' ∉ name.toList) :
    locate system scope root name = locate other scope root name := by
  rw [locate, locate, candidates]
  rw [AgreeInScope] at agree
  generalize scope.resolutionPrefixes = folders at agree
  induction folders with
  | nil => rfl
  | cons folder folders ih =>
    obtain ⟨here, later⟩ := List.forall_mem_cons.mp agree
    rw [List.map_cons, List.findSome?_cons, List.findSome?_cons, ih later,
      readSource?_join_congr slashless (here name)]

theorem analyzeFrameInTime_congr {frame : Frame} (agree : AgreeInScope scope root system other)
    (slashless : '/' ∉ frame.filename.toList) (late : Bool) :
    analyzeFrameInTime other scope root late frame =
      analyzeFrameInTime system scope root late frame := by
  rw [analyzeFrameInTime, analyzeFrameInTime, analyzeFrame, analyzeFrame,
    locate_congr agree slashless]

/-! ## Where the files of frames lie -/

/-- A candidate that can be read lies in one of the directories. -/
theorem liesInScope_of_mem_candidates (kept : ∀ c ∈ name.toList, isSeparator c = false)
    {path : String} (mem : path ∈ candidates scope root name) {bytes : List UInt8}
    (read : system.readBytes path = .ok bytes) : LiesInScope system scope root name path := by
  obtain ⟨folder, listed, rfl⟩ := List.mem_map.mp mem
  have slashless : '/' ∉ name.toList := fun mem => absurd (kept _ mem) (by decide)
  have backslashless : '\\' ∉ name.toList := fun mem => absurd (kept _ mem) (by decide)
  obtain ⟨-, found⟩ := (FileSystem.readBytes_join_eq_ok_iff slashless).mp read
  have valid := FileSystem.isValidName_of_fileIn? found
  have proper : name ∉ ["", ".", ".."] := by
    simp only [isValidName, Bool.and_eq_true, bne_iff_ne] at valid
    simp [valid.1.1]
  exact {
    slashless, backslashless
    properName := proper
    isEntry := ⟨folder, listed, bytes, rfl, found, FileSystem.readBytes_eq_ok_iff.mp read⟩ }

/-! ## Whole traces -/

/-- Whatever a trace says, the paths in its analysis denote files of the directories in which the
files of frames are looked for, and so does every path that is read for one of its frames. Files
elsewhere do not change the analysis. -/
theorem analyzeTrace_confined {trace : String} {frames : List Frame}
    (parsed : parseTrace TraceRule.all trace = .ok frames) (late : Nat → Bool) :
    ∃ analysis, analyzeTrace system scope root trace late = .ok analysis ∧
      (∀ result ∈ analysis.results, result.frame ∈ frames ∧
        ∀ path, result.outcome.path? = some path →
          LiesInScope system scope root result.frame.filename path) ∧
      (∀ frame ∈ frames, ∀ path ∈ candidates scope root frame.filename, ∀ bytes,
        system.readBytes path = .ok bytes →
          LiesInScope system scope root frame.filename path) ∧
      ∀ other, AgreeInScope scope root system other →
        analyzeTrace other scope root trace late = .ok analysis := by
  have kept {frame : Frame} (mem : frame ∈ frames) := not_isSeparator_of_parseTrace parsed mem
  have mem_of_taken {frame : Frame} (mem : frame ∈ takeUpTo scope.maxFrames frames) :
      frame ∈ frames := (takeUpTo_isPrefix _ _).subset mem
  refine ⟨_, analyzeTrace_eq_ok_iff.mpr ⟨frames, parsed, rfl⟩, ?_, ?_, ?_⟩
  · intro result mem
    obtain ⟨frame, taken, late, rfl⟩ := exists_of_mem_analyzeFrames mem
    rw [frame_analyzeFrameInTime]
    refine ⟨mem_of_taken taken, fun path found => ?_⟩
    obtain ⟨content, located⟩ := locate_of_path? found
    obtain ⟨candidate, text_read⟩ := mem_candidates_of_locate located
    obtain ⟨bytes, read, -⟩ := FileSystem.readText_eq_ok_iff.mp text_read
    exact liesInScope_of_mem_candidates (kept (mem_of_taken taken)) candidate read
  · intro frame mem path candidate bytes read
    exact liesInScope_of_mem_candidates (kept mem) candidate read
  · intro other agree
    refine analyzeTrace_eq_ok_iff.mpr ⟨frames, parsed, ?_⟩
    refine congrArg (TraceAnalysis.mk frames)
      (analyzeFrames_congr (fun frame taken => ?_) late).symm
    have slashless : '/' ∉ frame.filename.toList :=
      fun mem => absurd (kept (mem_of_taken taken) _ mem) (by decide)
    exact analyzeFrameInTime_congr agree slashless

/-- A file system with two files of one name, one of them in a codebase and one beside it. -/
def besideSystem : FileSystem where
  root := .folder "repo" (.file "a.rb" [0x78] .empty)
    (.folder "etc" (.file "a.rb" [0x79] .empty) .empty)
  working := []

theorem analyzeTrace_confined_besideSystem :
    parseTrace TraceRule.all "../etc/a.rb:1" = .ok [{ filename := "a.rb", line := 1 }] ∧
      ∃ analysis, analyzeTrace besideSystem {} "repo" "../etc/a.rb:1" = .ok analysis ∧
        (∀ result ∈ analysis.results, result.frame ∈ [{ filename := "a.rb", line := 1 }] ∧
          ∀ path, result.outcome.path? = some path →
            LiesInScope besideSystem {} "repo" result.frame.filename path) ∧
        (∀ frame ∈ [({ filename := "a.rb", line := 1 } : Frame)],
          ∀ path ∈ candidates {} "repo" frame.filename, ∀ bytes,
          besideSystem.readBytes path = .ok bytes →
            LiesInScope besideSystem {} "repo" frame.filename path) ∧
        ∀ other, AgreeInScope {} "repo" besideSystem other →
          analyzeTrace other {} "repo" "../etc/a.rb:1" = .ok analysis := by
  have parsed : parseTrace TraceRule.all "../etc/a.rb:1" =
      .ok [{ filename := "a.rb", line := 1 }] := by
    decide
  exact ⟨parsed, analyzeTrace_confined parsed fun _ => false⟩

end TraceInquest
