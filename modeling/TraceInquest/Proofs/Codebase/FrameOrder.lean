import TraceInquest.Proofs.Codebase.Analysis

/-! # Frames that are investigated at the same time

The first frames of a trace are investigated at the same time. Unless time runs out for some of
them, the results are the analyses that each frame would get alone, in the order of the trace,
whichever frame is done first.

* **`FrameTask`** — what the work on a frame can come to.
* **`frameTask_iff`** — it is what comes of the frame, late or not.
* **`ends_frameTask_iff`** — what the work on frames can come to, in whatever order they are done.
* **`analyzeTrace_in_order`** — the results of a trace, in whatever order they come in. -/

namespace TraceInquest

/-- What the work on a frame can come to: the analysis of the frame alone, if any time is allowed
for it, and no file, if its time runs out. -/
inductive FrameTask (system : FileSystem) (scope : Scope) (root : String) (frame : Frame) :
    FrameAnalysis → Prop where
  | finished (allowed : scope.allowsNoTime = false) :
      FrameTask system scope root frame (analyzeFrame system scope root frame)
  | timedOut {seconds : Float} (limited : scope.frameTimeout = some seconds) :
      FrameTask system scope root frame { frame, outcome := .notFound }

variable {system : FileSystem} {scope : Scope} {root trace : String}

/-! ## Limits of time -/

theorem allowsNoTime_of_none (unlimited : scope.frameTimeout = none) :
    scope.allowsNoTime = false := by
  rw [Scope.allowsNoTime, unlimited]

theorem allowsNoTime_of_le {seconds : Float} (limited : scope.frameTimeout = some seconds)
    (none_left : seconds ≤ 0) : scope.allowsNoTime = true := by
  rw [Scope.allowsNoTime, limited]
  exact decide_eq_true none_left

theorem timesOut_of_none (unlimited : scope.frameTimeout = none) (late : Bool) :
    scope.timesOut late = false := by
  rw [Scope.timesOut, allowsNoTime_of_none unlimited, unlimited]
  exact Bool.and_false late

theorem timesOut_of_allowsNoTime (no_time : scope.allowsNoTime = true) (late : Bool) :
    scope.timesOut late = true := by
  rw [Scope.timesOut, no_time, Bool.true_or]

/-- Time runs out only for a frame whose time is limited. -/
theorem exists_limit_of_timesOut {late : Bool} (out : scope.timesOut late = true) :
    ∃ seconds, scope.frameTimeout = some seconds := by
  cases limited : scope.frameTimeout with
  | none =>
    rw [timesOut_of_none limited] at out
    cases out
  | some seconds => exact ⟨seconds, rfl⟩

/-- What the work on a frame can come to is what comes of the frame, late or not. -/
theorem frameTask_iff {frame : Frame} {result : FrameAnalysis} :
    FrameTask system scope root frame result ↔
      ∃ late, analyzeFrameInTime system scope root late frame = result := by
  constructor
  · rintro (allowed | limited)
    · exact ⟨false, if_neg (by simp [Scope.timesOut, allowed])⟩
    · exact ⟨true, if_pos (by simp [Scope.timesOut, limited])⟩
  · rintro ⟨late, rfl⟩
    rw [analyzeFrameInTime]
    split
    · rename_i out
      obtain ⟨seconds, limited⟩ := exists_limit_of_timesOut out
      exact .timedOut limited
    · rename_i in_time
      refine .finished (Bool.eq_false_iff.mpr fun no_time => in_time ?_)
      exact timesOut_of_allowsNoTime no_time late

theorem forall₂_frameTask_iff {frames : List Frame} {results : List FrameAnalysis} :
    List.Forall₂ (FrameTask system scope root) frames results ↔
      ∃ late, analyzeFrames system scope root late frames = results := by
  constructor
  · intro tasks
    induction tasks with
    | nil => exact ⟨fun _ => false, rfl⟩
    | @cons frame result frames results task _ ih =>
      obtain ⟨first, rfl⟩ := frameTask_iff.mp task
      obtain ⟨later, rfl⟩ := ih
      refine ⟨fun number => if number = 0 then first else later (number - 1), ?_⟩
      simp [analyzeFrames, List.mapIdx_cons]
  · rintro ⟨late, rfl⟩
    induction frames generalizing late with
    | nil => exact .nil
    | cons frame frames ih =>
      rw [analyzeFrames, List.mapIdx_cons]
      exact .cons (frameTask_iff.mpr ⟨_, rfl⟩) (ih fun number => late (number + 1))

/-- The work on frames, in whatever order they are done, can come to what comes of them if some are
late, and to nothing else. -/
theorem ends_frameTask_iff {frames : List Frame} {collected : List (FrameAnalysis × Nat)} :
    FanOut.Ends (FrameTask system scope root) frames collected ↔
      ∃ late, collected.Perm (analyzeFrames system scope root late frames).zipIdx := by
  rw [FanOut.ends_iff]
  constructor
  · rintro ⟨results, done, same⟩
    obtain ⟨late, rfl⟩ := forall₂_frameTask_iff.mp done
    exact ⟨late, same⟩
  · rintro ⟨late, same⟩
    exact ⟨_, forall₂_frameTask_iff.mpr ⟨late, rfl⟩, same⟩

/-! ## The results of a trace -/

theorem analyzeFrames_of_none (unlimited : scope.frameTimeout = none) (late : Nat → Bool)
    (frames : List Frame) :
    analyzeFrames system scope root late frames = frames.map (analyzeFrame system scope root) := by
  apply List.ext_getElem <;> simp [analyzeFrames, analyzeFrameInTime, timesOut_of_none unlimited]

theorem analyzeFrames_of_allowsNoTime (no_time : scope.allowsNoTime = true) (late : Nat → Bool)
    (frames : List Frame) :
    analyzeFrames system scope root late frames =
      frames.map fun frame => { frame, outcome := .notFound } := by
  apply List.ext_getElem <;>
    simp [analyzeFrames, analyzeFrameInTime, timesOut_of_allowsNoTime no_time]

/-- Without a limit of time, and without any time, it does not matter which frames are late. -/
theorem analyzeFrames_eq_of_settled
    (settled : scope.frameTimeout = none ∨ scope.allowsNoTime = true)
    (late late' : Nat → Bool) (frames : List Frame) :
    analyzeFrames system scope root late frames = analyzeFrames system scope root late' frames := by
  rcases settled with unlimited | no_time
  · rw [analyzeFrames_of_none unlimited, analyzeFrames_of_none unlimited]
  · rw [analyzeFrames_of_allowsNoTime no_time, analyzeFrames_of_allowsNoTime no_time]

/-- A trace has all its frames, and of the first of them the results in the order of the trace: if
time is not limited, the analysis that each frame would get alone, and if no time is allowed, no
file for any of them. The results of the frames can come in in any order, and their numbers restore
the order of the trace. Even where time runs out for some frames, each of the others has the
analysis it would get alone. -/
theorem analyzeTrace_in_order {frames : List Frame} {limit : Nat}
    (parsed : parseTrace TraceRule.all trace = .ok frames) (limited : scope.maxFrames = limit)
    (late : Nat → Bool) :
    ∃ analysis, analyzeTrace system scope root trace late = .ok analysis ∧
      analysis.frames = frames ∧
      (scope.frameTimeout = none →
        analysis.results = (frames.take limit).map (analyzeFrame system scope root)) ∧
      (∀ seconds, scope.frameTimeout = some seconds → seconds ≤ 0 →
        analysis.results = (frames.take limit).map fun frame => { frame, outcome := .notFound }) ∧
      (scope.frameTimeout = none ∨ scope.allowsNoTime = true → ∀ collected,
        FanOut.Ends (FrameTask system scope root) (frames.take limit) collected ↔
          collected.Perm analysis.results.zipIdx) ∧
      (∀ collected, collected.Perm analysis.results.zipIdx →
        inNumberOrder collected = analysis.results) ∧
      ∀ collected, FanOut.Ends (FrameTask system scope root) (frames.take limit) collected →
        List.Forall₂ (FrameTask system scope root) (frames.take limit)
          (inNumberOrder collected) := by
  have ended : analyzeTrace system scope root trace late = .ok {
      frames
      results := analyzeFrames system scope root late (takeUpTo scope.maxFrames frames) } :=
    analyzeTrace_eq_ok_iff.mpr ⟨frames, parsed, rfl⟩
  rw [limited, takeUpTo_natCast] at ended
  refine ⟨_, ended, rfl, fun unlimited => analyzeFrames_of_none unlimited late _,
    fun seconds time none_left =>
      analyzeFrames_of_allowsNoTime (allowsNoTime_of_le time none_left) late _,
    ?_, fun collected => inNumberOrder_of_perm, ?_⟩
  · intro settled collected
    rw [ends_frameTask_iff]
    constructor
    · rintro ⟨others, same⟩
      rwa [analyzeFrames_eq_of_settled settled others late] at same
    · exact fun same => ⟨late, same⟩
  · intro collected ended
    obtain ⟨others, same⟩ := ends_frameTask_iff.mp ended
    rw [inNumberOrder_of_perm same]
    exact forall₂_frameTask_iff.mpr ⟨others, rfl⟩

/-- A file system with a codebase of one file. -/
def oneFileSystem : FileSystem where
  root := .folder "repo" (.file "a.rb" [0x78] .empty) .empty
  working := []

theorem analyzeTrace_in_order_oneFileSystem :
    parseTrace TraceRule.all "a.rb:1\nb.rb:1\na.rb:1" =
        .ok [{ filename := "a.rb", line := 1 }, { filename := "b.rb", line := 1 },
          { filename := "a.rb", line := 1 }] ∧
      ({ maxFrames := 2 } : Scope).maxFrames = (2 : Nat) ∧
      ∃ analysis, analyzeTrace oneFileSystem { maxFrames := 2 } "repo"
          "a.rb:1\nb.rb:1\na.rb:1" = .ok analysis ∧
        analysis.frames.length = 3 ∧
        analysis.results = [
          analyzeFrame oneFileSystem { maxFrames := 2 } "repo" { filename := "a.rb", line := 1 },
          analyzeFrame oneFileSystem { maxFrames := 2 } "repo" { filename := "b.rb", line := 1 }] ∧
        inNumberOrder (analysis.results.zipIdx.reverse) = analysis.results := by
  have parsed : parseTrace TraceRule.all "a.rb:1\nb.rb:1\na.rb:1" =
      .ok [{ filename := "a.rb", line := 1 }, { filename := "b.rb", line := 1 },
        { filename := "a.rb", line := 1 }] := by
    decide
  have limited : ({ maxFrames := 2 } : Scope).maxFrames = (2 : Nat) := rfl
  obtain ⟨analysis, ended, frames_eq, unlimited, -, -, any_order, -⟩ :=
    @analyzeTrace_in_order oneFileSystem _ "repo" _ _ _ parsed limited
      fun _ => false
  refine ⟨parsed, limited, analysis, ended, ?_, unlimited rfl, ?_⟩
  · rw [frames_eq]
    rfl
  · exact any_order _ (List.reverse_perm _)

end TraceInquest
