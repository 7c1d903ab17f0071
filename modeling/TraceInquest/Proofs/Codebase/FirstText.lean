import TraceInquest.Proofs.Codebase.FrameFile
import TraceInquest.Proofs.Text.Utf8

/-! # The first text file among the candidates of a frame

The places where the file of a frame may be are looked at one after the other. A place where there
is nothing, a directory, or a file that is no text is passed over, and so is a path that nothing
can have; the first text file decides what becomes of the frame.

* **`FileSystem.HoldsText`** — a path denotes a file whose bytes encode a text.
* **`IsFirstText`** — a path is the first one of a list that does.
* **`firstText`**, **`firstText_eq_ok`** — looking at paths step by step, which cannot fail.
* **`locate_eq_some_iff`**, **`locate_eq_none_iff`** — what is found for a frame.
* **`analyzeFrame_first_text`** — what becomes of a frame. -/

namespace TraceInquest

open Text.Utf8

variable {system : FileSystem} {scope : Scope} {root path content : String} {frame : Frame}

/-! ## Text files -/

/-- Whether a path denotes a file whose bytes encode a text. -/
def FileSystem.HoldsText (system : FileSystem) (path : String) (text : List Char) : Prop :=
  ∃ bytes, system.get path = .ok (.file bytes) ∧ Encodes bytes text

/-- What is read from a path is the text that its file holds, with unified newlines. -/
theorem readSource?_eq_some_iff_holdsText :
    readSource? system path = some content ↔
      ∃ text, system.HoldsText path text ∧ content = String.ofList (Text.unifyNewlines text) := by
  simp only [readSource?_eq_some_iff, FileSystem.readText_eq_ok_iff,
    FileSystem.readBytes_eq_ok_iff, textOfBytes, except_map_eq_ok, decode_eq_ok_iff,
    FileSystem.HoldsText]
  constructor
  · rintro ⟨bytes, isFile, text, encodes, rfl⟩
    exact ⟨text, ⟨bytes, isFile, encodes⟩, rfl⟩
  · rintro ⟨text, ⟨bytes, isFile, encodes⟩, rfl⟩
    exact ⟨bytes, isFile, text, encodes, rfl⟩

theorem readSource?_eq_none_iff_holdsText :
    readSource? system path = none ↔ ∀ text, ¬system.HoldsText path text := by
  rw [Option.eq_none_iff_forall_ne_some]
  constructor
  · intro unread text holds
    exact unread _ (readSource?_eq_some_iff_holdsText.mpr ⟨text, holds, rfl⟩)
  · intro no_text content read
    obtain ⟨text, holds, -⟩ := readSource?_eq_some_iff_holdsText.mp read
    exact no_text text holds

/-- Whether a path is the first one of a list that denotes a text file. -/
structure IsFirstText (system : FileSystem) (paths : List String) (path : String)
    (text : List Char) : Prop where
  holds : system.HoldsText path text
  first : ∃ before behind, paths = before ++ path :: behind ∧
    ∀ other ∈ before, ∀ text, ¬system.HoldsText other text

/-! ## Looking at paths step by step -/

/-- Reads a file, if it is a text file. Only a path with a NUL character cannot be asked for. -/
def readSource (system : FileSystem) (path : String) : Except FileFault (Option String) :=
  if hasNul path then .error .embeddedNul else .ok (readSource? system path)

/-- Looks for the first text file: a path that denotes no file is passed over unread, and a file
that is no text is passed over when it was read. -/
def firstText (system : FileSystem) : List String → Except FileFault (Option (String × String))
  | [] => .ok none
  | path :: rest =>
    if system.isFile path then do
      match ← readSource system path with
      | some content => .ok (some (path, content))
      | none => firstText system rest
    else firstText system rest

/-- A path that denotes a file has no NUL character. -/
theorem hasNul_of_isFile (isFile : system.isFile path = true) : hasNul path = false := by
  rw [FileSystem.isFile] at isFile
  split at isFile
  · rename_i bytes found
    obtain ⟨names, resolved, -⟩ := FileSystem.get_eq_ok_iff.mp found
    exact FileSystem.hasNul_of_resolve resolved
  · cases isFile

/-- What can be read is a file. -/
theorem readSource?_of_not_isFile (no_file : system.isFile path = false) :
    readSource? system path = none := by
  rw [readSource?_eq_none_iff_holdsText]
  rintro text ⟨bytes, found, -⟩
  rw [FileSystem.isFile, found] at no_file
  cases no_file

/-- Looking at paths step by step does not fail: only files are read, and their paths can be asked
for. -/
theorem firstText_eq_ok (paths : List String) :
    firstText system paths = .ok (paths.findSome? fun path =>
      (readSource? system path).map fun content => (path, content)) := by
  induction paths with
  | nil => rfl
  | cons path rest ih =>
    rw [firstText, List.findSome?_cons]
    cases isFile : system.isFile path with
    | false =>
      rw [if_neg (by simp), ih, readSource?_of_not_isFile isFile]
      rfl
    | true =>
      -- only here could the search fail, but a path that denotes a file can be asked for
      have asked : readSource system path = .ok (readSource? system path) := by
        rw [readSource, hasNul_of_isFile isFile]
        rfl
      rw [if_pos rfl, asked, except_ok_bind]
      cases readSource? system path with
      | none => exact ih
      | some content => rfl

/-! ## The file of a frame -/

theorem locate_eq_some_iff {filename : String} :
    locate system scope root filename = some (path, content) ↔
      ∃ text, IsFirstText system (candidates scope root filename) path text ∧
        content = String.ofList (Text.unifyNewlines text) := by
  simp only [locate, List.findSome?_eq_some_iff, Option.map_eq_some_iff, Option.map_eq_none_iff,
    Prod.mk.injEq, readSource?_eq_none_iff_holdsText]
  constructor
  · rintro ⟨before, other, behind, listed, ⟨_, read, rfl, rfl⟩, passed⟩
    obtain ⟨text, holds, rfl⟩ := readSource?_eq_some_iff_holdsText.mp read
    exact ⟨text, ⟨holds, before, behind, listed, passed⟩, rfl⟩
  · rintro ⟨text, ⟨holds, before, behind, listed, passed⟩, rfl⟩
    have read := readSource?_eq_some_iff_holdsText.mpr ⟨text, holds, rfl⟩
    exact ⟨before, path, behind, listed, ⟨_, read, rfl, rfl⟩, passed⟩

theorem locate_eq_none_iff {filename : String} :
    locate system scope root filename = none ↔
      ∀ path ∈ candidates scope root filename, ∀ text, ¬system.HoldsText path text := by
  simp only [locate, List.findSome?_eq_none_iff, Option.map_eq_none_iff,
    readSource?_eq_none_iff_holdsText]

/-! ## What becomes of the frame -/

theorem analyzeFrame_of_locate_none
    (missing : locate system scope root frame.filename = none) :
    analyzeFrame system scope root frame = { frame, outcome := .notFound } := by
  rw [analyzeFrame, missing]

theorem locatedPath?_eq (system : FileSystem) (scope : Scope) (root filename : String) :
    locatedPath? system scope root filename =
      (locate system scope root filename).map (·.1) := by
  rw [locatedPath?]
  cases locate system scope root filename <;> rfl

/-- The path of a frame is the path of the file that is found for it. -/
theorem path?_analyzeFrame :
    (analyzeFrame system scope root frame).outcome.path? =
      locatedPath? system scope root frame.filename := by
  rw [locatedPath?_eq]
  cases found : locate system scope root frame.filename with
  | none =>
    rw [analyzeFrame_of_locate_none found]
    rfl
  | some file =>
    obtain ⟨path, content⟩ := file
    rw [outcome_of_locate found]
    cases windowAround content frame.line scope.contextRadius path <;> rfl

theorem FrameOutcome.status_eq_resolved_iff {outcome : FrameOutcome} :
    outcome.status = "resolved" ↔ outcome.window?.isSome = true := by
  cases outcome <;> simp [status, window?]

theorem FrameOutcome.status_eq_not_found_iff {outcome : FrameOutcome} :
    outcome.status = "not_found" ↔ outcome.path? = none := by
  cases outcome <;> simp [status, path?]

/-- A line that a text has can be shown with the lines around it. -/
theorem exists_windowAround {targetLine : Int} (radius : Int) (counted : 1 ≤ targetLine)
    (in_text : targetLine ≤ 1 + content.toList.count '\n') :
    ∃ window, windowAround content targetLine radius path = some window ∧ window.path = path ∧
      window.targetLine = targetLine := by
  have length := Text.length_contentLines content
  rw [windowAround, if_neg (by omega)]
  exact ⟨_, rfl, rfl, rfl⟩

theorem windowAround_eq_none {targetLine : Int} (radius : Int)
    (outside : ¬(1 ≤ targetLine ∧ targetLine ≤ 1 + content.toList.count '\n')) :
    windowAround content targetLine radius path = none := by
  have length := Text.length_contentLines content
  rw [windowAround, if_pos (by omega)]

/-- The first text file among its candidates decides what becomes of a frame: it is resolved if the
file has its line, and otherwise shown without lines. A frame without such a file is not found,
whatever its candidates are, and looking for it never fails. -/
theorem analyzeFrame_first_text (system : FileSystem) (scope : Scope) (root : String)
    (frame : Frame) :
    firstText system (candidates scope root frame.filename) =
        .ok (locate system scope root frame.filename) ∧
      ((∀ path ∈ candidates scope root frame.filename, ∀ text, ¬system.HoldsText path text) →
        analyzeFrame system scope root frame = { frame, outcome := .notFound }) ∧
      (∀ path text, IsFirstText system (candidates scope root frame.filename) path text →
        (1 ≤ frame.line ∧ frame.line ≤ 1 + (Text.unifyNewlines text).count '\n' →
          ∃ window, window.path = path ∧ window.targetLine = frame.line ∧
            analyzeFrame system scope root frame =
              { frame, outcome := .resolved path window }) ∧
        (¬(1 ≤ frame.line ∧ frame.line ≤ 1 + (Text.unifyNewlines text).count '\n') →
          analyzeFrame system scope root frame = { frame, outcome := .noContext path })) ∧
      ((analyzeFrame system scope root frame).outcome.status = "resolved" ↔
        (analyzeFrame system scope root frame).outcome.window?.isSome = true) ∧
      ((analyzeFrame system scope root frame).outcome.status = "not_found" ↔
        (analyzeFrame system scope root frame).outcome.path? = none) ∧
      (analyzeFrame system scope root frame).outcome.path? =
        locatedPath? system scope root frame.filename ∧
      locatedPath? system scope root frame.filename =
        (locate system scope root frame.filename).map (·.1) := by
  refine ⟨firstText_eq_ok _, fun missing => ?_, fun path text first => ?_,
    FrameOutcome.status_eq_resolved_iff, FrameOutcome.status_eq_not_found_iff,
    path?_analyzeFrame, locatedPath?_eq _ _ _ _⟩
  · exact analyzeFrame_of_locate_none (locate_eq_none_iff.mpr missing)
  · have located := locate_eq_some_iff.mpr ⟨text, first, rfl⟩
    -- the lines are counted in the text that was read, as characters of a string
    have counted := congrArg (List.count '\n')
      (String.toList_ofList (l := Text.unifyNewlines text))
    rw [← counted, analyzeFrame, located]
    constructor
    · rintro ⟨positive, in_text⟩
      obtain ⟨window, shown, window_path, target⟩ :=
        exists_windowAround scope.contextRadius positive in_text
      exact ⟨window, window_path, target, by simp only [shown]⟩
    · intro outside
      simp only [windowAround_eq_none _ outside]

/-- A codebase with a directory, a file that is no text, and a text file in the places where a file
is looked for. -/
def thirdPlaceSystem : FileSystem where
  root := .folder "repo"
    (.folder "a.rb" .empty
      (.folder "src" (.file "a.rb" [0xFF] .empty)
        (.folder "app" (.file "a.rb" [0x78, 0x0D, 0x0A] .empty) .empty))) .empty
  working := []

theorem isFirstText_thirdPlaceSystem :
    IsFirstText thirdPlaceSystem (candidates {} "repo" "a.rb") "repo/app/a.rb"
      ['x', '\r', '\n'] where
  holds := ⟨[0x78, 0x0D, 0x0A], by decide, decode_eq_ok_iff.mp (by decide)⟩
  first := by
    refine ⟨["repo/a.rb", "repo/src/a.rb"], [], by decide, fun other mem => ?_⟩
    rw [← readSource?_eq_none_iff_holdsText]
    revert other
    decide

theorem analyzeFrame_first_text_thirdPlaceSystem :
    IsFirstText thirdPlaceSystem (candidates {} "repo" "a.rb") "repo/app/a.rb"
        ['x', '\r', '\n'] ∧
      (∃ window, analyzeFrame thirdPlaceSystem {} "repo" { filename := "a.rb", line := 2 } =
        ⟨{ filename := "a.rb", line := 2 }, .resolved "repo/app/a.rb" window⟩) ∧
      analyzeFrame thirdPlaceSystem {} "repo" { filename := "a.rb", line := 3 } =
        ⟨{ filename := "a.rb", line := 3 }, .noContext "repo/app/a.rb"⟩ := by
  have first := isFirstText_thirdPlaceSystem
  obtain ⟨-, -, found, -⟩ :=
    analyzeFrame_first_text thirdPlaceSystem {} "repo" { filename := "a.rb", line := 2 }
  obtain ⟨-, -, outside, -⟩ :=
    analyzeFrame_first_text thirdPlaceSystem {} "repo" { filename := "a.rb", line := 3 }
  obtain ⟨window, -, -, resolved⟩ := (found _ _ first).1 (by decide)
  exact ⟨first, ⟨window, resolved⟩, (outside _ _ first).2 (by decide)⟩

end TraceInquest
