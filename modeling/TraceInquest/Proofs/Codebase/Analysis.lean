import TraceInquest.Codebase.Analysis
import TraceInquest.Proofs.Codebase.FanOut
import TraceInquest.Proofs.Except

/-! # What the analysis of a trace is made of

* **`length_takeUpTo`** — how much is taken up to a limit.
* **`mem_candidates_of_locate`** — what is found for a frame is a candidate that can be read.
* **`locate_of_path?`** — the path of a frame is what is found for it.
* **`windowAround_of_window?`** — the window of a frame is cut out of that file.
* **`analyzeTrace_eq_ok_iff`** — a trace that can be read has its frames and their analyses. -/

namespace TraceInquest

variable {system : FileSystem} {scope : Scope} {root : String}

theorem readSource?_eq_some_iff {path content : String} :
    readSource? system path = some content ↔ system.readText path = .ok content := by
  rw [readSource?]
  cases system.readText path <;> simp [Except.toOption]

/-- How much is taken up to a limit. -/
theorem length_takeUpTo {α : Type} {limit : Int} (nonnegative : 0 ≤ limit) (items : List α) :
    ((takeUpTo limit items).length : Int) = min (items.length : Int) limit := by
  obtain ⟨count, rfl⟩ := Int.eq_ofNat_of_zero_le nonnegative
  rw [takeUpTo_natCast, List.length_take]
  omega

/-- What is found for a frame is a candidate, with its text. -/
theorem mem_candidates_of_locate {filename path content : String}
    (found : locate system scope root filename = some (path, content)) :
    path ∈ candidates scope root filename ∧ system.readText path = .ok content := by
  obtain ⟨candidate, mem, read⟩ := List.exists_of_findSome?_eq_some found
  obtain ⟨text, text_read, same⟩ := Option.map_eq_some_iff.mp read
  obtain ⟨rfl, rfl⟩ := Prod.mk.inj same
  exact ⟨mem, readSource?_eq_some_iff.mp text_read⟩

theorem frame_analyzeFrameInTime (late : Bool) (frame : Frame) :
    (analyzeFrameInTime system scope root late frame).frame = frame := by
  rw [analyzeFrameInTime]
  split <;> rfl

/-- The analyses of frames that are investigated at the same time. -/
def analyzeFrames (system : FileSystem) (scope : Scope) (root : String) (late : Nat → Bool)
    (frames : List Frame) : List FrameAnalysis :=
  frames.mapIdx fun number frame => analyzeFrameInTime system scope root (late number) frame

theorem exists_of_mem_analyzeFrames {late : Nat → Bool} {frames : List Frame}
    {result : FrameAnalysis} (mem : result ∈ analyzeFrames system scope root late frames) :
    ∃ frame ∈ frames, ∃ late, analyzeFrameInTime system scope root late frame = result := by
  obtain ⟨number, inside, rfl⟩ := List.mem_mapIdx.mp mem
  exact ⟨frames[number], List.getElem_mem inside, late number, rfl⟩

theorem analyzeFrames_congr {other : FileSystem} {frames : List Frame}
    (same : ∀ frame ∈ frames, ∀ late, analyzeFrameInTime other scope root late frame =
      analyzeFrameInTime system scope root late frame) (late : Nat → Bool) :
    analyzeFrames other scope root late frames = analyzeFrames system scope root late frames := by
  apply List.ext_getElem
  · simp [analyzeFrames]
  · intro number _ inside
    simp only [analyzeFrames, List.getElem_mapIdx]
    exact same _ (List.getElem_mem _) _

theorem map_frame_analyzeFrames (late : Nat → Bool) (frames : List Frame) :
    (analyzeFrames system scope root late frames).map (·.frame) = frames := by
  apply List.ext_getElem <;> simp [analyzeFrames, frame_analyzeFrameInTime]

/-- The path of a frame is that of the file that is found for it. -/
theorem locate_of_path? {late : Bool} {frame : Frame} {path : String}
    (shown : (analyzeFrameInTime system scope root late frame).outcome.path? = some path) :
    ∃ content, locate system scope root frame.filename = some (path, content) := by
  rw [analyzeFrameInTime] at shown
  split at shown
  · simp [FrameOutcome.path?] at shown
  · rw [analyzeFrame] at shown
    cases found : locate system scope root frame.filename with
    | none => simp [found, FrameOutcome.path?] at shown
    | some file =>
      obtain ⟨candidate, content⟩ := file
      refine ⟨content, ?_⟩
      -- with or without the line, the path is that of the file
      simp only [found] at shown
      split at shown
      · simpa [FrameOutcome.path?] using shown
      · simpa [FrameOutcome.path?] using shown

/-- The window of a frame is cut out of the file that is found for it. -/
theorem windowAround_of_window? {late : Bool} {frame : Frame} {window : ContextWindow}
    (shown : (analyzeFrameInTime system scope root late frame).outcome.window? = some window) :
    ∃ path content,
      (analyzeFrameInTime system scope root late frame).outcome.path? = some path ∧
      system.readText path = .ok content ∧
      windowAround content frame.line scope.contextRadius path = some window := by
  rw [analyzeFrameInTime] at shown ⊢
  -- only a frame whose file is found and has the line comes with a window
  split at shown
  · simp [FrameOutcome.window?] at shown
  · rename_i in_time
    rw [if_neg in_time]
    rw [analyzeFrame] at shown ⊢
    cases found : locate system scope root frame.filename with
    | none => simp [found, FrameOutcome.window?] at shown
    | some file =>
      obtain ⟨path, content⟩ := file
      simp only [found] at shown
      cases cut : windowAround content frame.line scope.contextRadius path with
      | none => simp [cut, FrameOutcome.window?] at shown
      | some window' =>
        simp only [cut, FrameOutcome.window?, Option.some_inj] at shown
        rw [← shown]
        refine ⟨path, content, ?_, (mem_candidates_of_locate found).2, cut⟩
        simp only [cut, FrameOutcome.path?]

/-- A trace that can be read has its frames and the analyses of the first of them. -/
theorem analyzeTrace_eq_ok_iff {trace : String} {late : Nat → Bool} {analysis : TraceAnalysis} :
    analyzeTrace system scope root trace late = .ok analysis ↔
      ∃ frames, parseTrace TraceRule.all trace = .ok frames ∧
        analysis = {
          frames
          results :=
            analyzeFrames system scope root late (takeUpTo scope.maxFrames frames) } := by
  rw [analyzeTrace, except_bind_eq_ok]
  refine exists_congr fun frames => and_congr_right fun _ => ?_
  dsimp only
  rw [inNumberOrder_map_zipIdx fun number => analyzeFrameInTime system scope root (late number)]
  constructor
  · exact fun same => (Except.ok.inj same).symm
  · rintro rfl
    rfl

end TraceInquest
