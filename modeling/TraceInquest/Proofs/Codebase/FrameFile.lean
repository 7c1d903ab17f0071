import TraceInquest.Proofs.Codebase.Analysis
import TraceInquest.Proofs.FileSystem.Entry
import TraceInquest.Proofs.Source.Symbols
import TraceInquest.Proofs.Source.Window

/-! # The file of a frame

The analysis of a frame and that of the file which is found for it show the same: the file as it was
read, the same lines around the line of the frame, and around this line a function of the file.

* **`analyzeFile_of_readText`** — a file that can be read has an analysis.
* **`relevant?_analyzeContent`** — its lines around a line are those of the window there.
* **`analyzeFile_of_locate`** — the analysis of the file of a frame. -/

namespace TraceInquest

variable {system : FileSystem} {scope : Scope} {root path content : String} {frame : Frame}

/-- A file that can be read has an analysis. -/
theorem analyzeFile_of_readText (read : system.readText path = .ok content)
    (targetLine? radius? : Option Int) :
    analyzeFile system scope path targetLine? radius? =
      .ok (some (analyzeContent scope path content targetLine? radius?)) := by
  obtain ⟨bytes, bytes_read, -⟩ := FileSystem.readText_eq_ok_iff.mp read
  obtain ⟨names, resolved, -⟩ :=
    FileSystem.get_eq_ok_iff.mp (FileSystem.readBytes_eq_ok_iff.mp bytes_read)
  rw [analyzeFile, FileSystem.hasNul_of_resolve resolved, readSource?_eq_some_iff.mpr read]
  rfl

/-- The lines around a line that the analysis of a file shows are those of the window there; if the
file has no such line, there is neither. -/
theorem relevant?_analyzeContent (targetLine : Int) :
    (analyzeContent scope path content (some targetLine) none).relevant? =
      (windowAround content targetLine scope.contextRadius path).map (·.lines) := by
  rw [analyzeContent, windowAround]
  simp only [Option.bind_some, Option.getD_none]
  by_cases inside : 1 ≤ targetLine ∧ targetLine ≤ (Text.contentLines content).length
  · rw [if_pos inside, if_neg (by omega)]
    rfl
  · rw [if_neg inside, if_pos (by omega)]
    rfl

/-- The outcome for a frame whose file is found. -/
theorem outcome_of_locate
    (located : locate system scope root frame.filename = some (path, content)) :
    (analyzeFrame system scope root frame).outcome =
      ((windowAround content frame.line scope.contextRadius path).map
        (FrameOutcome.resolved path)).getD (.noContext path) := by
  rw [analyzeFrame, located]
  dsimp only
  cases windowAround content frame.line scope.contextRadius path <;> rfl

/-- The function around the line of a window is unknown, or one of the functions of the file. -/
theorem containingFunction_of_windowAround {targetLine radius : Int} {window : ContextWindow}
    (shown : windowAround content targetLine radius path = some window) :
    window.containingFunction = unknownFunction ∨
      window.containingFunction ∈ extractFunctions content ∧
        window.containingFunction ∉ nonDeclarationNames := by
  obtain ⟨line, -, -, rfl⟩ := windowAround_eq_some_iff.mp shown
  exact containingFunction_eq_or_mem content (targetLine - 1)

/-- The analysis of the file of a frame shows what is shown for the frame. -/
theorem analyzeFile_of_locate
    (located : locate system scope root frame.filename = some (path, content)) :
    ∃ file, analyzeFile system scope path (some frame.line) none = .ok (some file) ∧
      file.content = content ∧ file.lineCount = 1 + content.toList.count '\n' ∧
      (file.relevant? = none ↔
        (analyzeFrame system scope root frame).outcome.status = "no_context") ∧
      (file.relevant? ≠ none →
        (analyzeFrame system scope root frame).outcome.status = "resolved" ∧
        ∃ window, (analyzeFrame system scope root frame).outcome.window? = some window ∧
          file.relevant? = some window.lines ∧
          (window.containingFunction = unknownFunction ∨
            window.containingFunction ∈ file.functions ∧
              window.containingFunction ∉ nonDeclarationNames)) := by
  have read := (mem_candidates_of_locate located).2
  have counted : ((Text.contentLines content).length : Int) = 1 + content.toList.count '\n' := by
    rw [Text.length_contentLines]
    omega
  refine ⟨_, analyzeFile_of_readText read _ _, rfl, counted, ?_⟩
  rw [relevant?_analyzeContent, outcome_of_locate located]
  cases shown : windowAround content frame.line scope.contextRadius path with
  | none => simp [FrameOutcome.status]
  | some window =>
    refine ⟨by simp [FrameOutcome.status], fun _ => ⟨rfl, window, rfl, rfl, ?_⟩⟩
    exact containingFunction_of_windowAround shown

/-- A codebase with one file, which declares a function. -/
def oneFunctionSystem : FileSystem where
  root := .folder "repo" (.file "a.rb" (Text.Utf8.encode "def f\n  1\nend") .empty) .empty
  working := []
  proper := by decide +kernel

/-- A frame in that function. -/
def oneFunctionFrame : Frame := { filename := "a.rb", line := 2 }

theorem analyzeFile_of_locate_oneFunctionSystem :
    locate oneFunctionSystem {} "repo" "a.rb" = some ("repo/a.rb", "def f\n  1\nend") ∧
      ∃ file window, analyzeFile oneFunctionSystem {} "repo/a.rb" (some 2) none = .ok (some file) ∧
        (analyzeFrame oneFunctionSystem {} "repo" oneFunctionFrame).outcome.window? =
          some window ∧ file.relevant? = some window.lines ∧ file.lineCount = 3 := by
  have located : locate oneFunctionSystem {} "repo" "a.rb" =
      some ("repo/a.rb", "def f\n  1\nend") := by decide +kernel
  obtain ⟨file, analyzed, -, counted, unresolved, resolved⟩ :=
    @analyzeFile_of_locate _ _ _ _ _ oneFunctionFrame located
  have status : (analyzeFrame oneFunctionSystem {} "repo" oneFunctionFrame).outcome.status =
      "resolved" := by decide +kernel
  have in_file : file.relevant? ≠ none := by
    rw [Ne, unresolved, status]
    decide
  obtain ⟨-, window, shown, lines_eq, -⟩ := resolved in_file
  exact ⟨located, file, window, analyzed, shown, lines_eq, counted⟩

end TraceInquest
