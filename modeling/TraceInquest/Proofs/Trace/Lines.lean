import TraceInquest.Proofs.Except
import TraceInquest.Proofs.Pattern.Captures
import TraceInquest.Proofs.Text.Lines
import TraceInquest.Proofs.Trace.Frame
import TraceInquest.Trace.Parse

/-! # The frames of a trace

A frame is read from one line of a trace, so no text of it holds a line feed. Of its path only the
last name is kept.

* **`exists_find?_of_parseTrace`** — the find of which a frame is made.
* **`hasLines_of_parseTrace`** — the texts of a frame are lines.
* **`not_isSeparator_of_parseTrace`** — the name of the file of a frame holds no separator. -/

namespace TraceInquest

/-- Whether the texts of a frame are lines. -/
structure Frame.HasLines (frame : Frame) : Prop where
  filename : Text.IsLine frame.filename
  function : Text.IsLine frame.function

theorem isLine_of_infix {part line : List Char} (infix_line : part <:+: line)
    (unbroken : '\n' ∉ line) : Text.IsLine (String.ofList part) := by
  rw [Text.IsLine, String.toList_ofList]
  exact fun mem => unbroken (infix_line.subset mem)

theorem isLine_functionName {captured line : List Char} (infix_line : captured <:+: line)
    (unbroken : '\n' ∉ line) : Text.IsLine (functionName captured) := by
  rw [functionName]
  split
  · decide
  · exact isLine_of_infix ((Text.strip_infix captured).trans infix_line) unbroken

/-- The texts of a frame that was read from a line are lines. -/
theorem hasLines_of_frameOf {pattern : Pattern FramePart} {line : List Char}
    {found : Found FramePart} {frame : Frame} (unbroken : '\n' ∉ line)
    (find : pattern.find? line = some found) (read : frameOf found = .ok frame) :
    frame.HasLines := by
  obtain ⟨number, -, read⟩ := except_bind_eq_ok.mp read
  obtain ⟨column, -, read⟩ := except_bind_eq_ok.mp read
  obtain rfl := Except.ok.inj read
  constructor
  · have path : baseName (Text.strip (found.captured .path)) <:+: line :=
      (baseName_suffix _).isInfix.trans
        ((Text.strip_infix _).trans ((Pattern.isIn_of_find? find).infix_captured .path))
    exact isLine_of_infix path unbroken
  · -- a layout without a function leaves it unknown
    show Text.IsLine (((found.captured? .function).map functionName).getD unknownFunction)
    cases captured : found.captured? .function with
    | none => decide
    | some function =>
      exact isLine_functionName ((Pattern.isIn_of_find? find).infix_of_captured? captured) unbroken

/-- Each frame of a trace is made of the find of a layout in one of its lines. -/
theorem exists_find?_of_parseTrace {rules : List TraceRule} {text : String} {frames : List Frame}
    (parsed : parseTrace rules text = .ok frames) {frame : Frame} (mem : frame ∈ frames) :
    ∃ line ∈ Text.splitLines text.toList, ∃ rule ∈ rules, ∃ found,
      rule.layout.find? line = some found ∧ frameOf found = .ok frame := by
  obtain ⟨results, read, rfl⟩ := except_map_eq_ok.mp parsed
  rw [List.mem_filterMap] at mem
  obtain ⟨result, mem, rfl⟩ := mem
  obtain ⟨line, cut, read⟩ := exists_of_mem_mapM read mem
  refine ⟨line, cut, ?_⟩
  rw [frameOfLine?] at read
  split at read
  · rename_i found first
    obtain ⟨rule, rule_mem, find⟩ := List.exists_of_findSome?_eq_some first
    obtain ⟨value, read, same⟩ := except_map_eq_ok.mp read
    rw [Option.some_inj.mp same] at read
    exact ⟨rule, rule_mem, found, find, read⟩
  · simp at read

/-- The texts of the frames of a trace are lines. -/
theorem hasLines_of_parseTrace {rules : List TraceRule} {text : String} {frames : List Frame}
    (parsed : parseTrace rules text = .ok frames) : ∀ frame ∈ frames, frame.HasLines := by
  intro frame mem
  obtain ⟨line, cut, rule, -, found, find, read⟩ := exists_find?_of_parseTrace parsed mem
  exact hasLines_of_frameOf (Text.not_mem_of_mem_splitLines cut) find read

/-- The name of the file of a frame holds no separator. -/
theorem not_isSeparator_of_parseTrace {rules : List TraceRule} {text : String}
    {frames : List Frame} (parsed : parseTrace rules text = .ok frames) {frame : Frame}
    (mem : frame ∈ frames) : ∀ c ∈ frame.filename.toList, isSeparator c = false := by
  obtain ⟨line, -, rule, -, found, -, read⟩ := exists_find?_of_parseTrace parsed mem
  obtain ⟨number, -, read⟩ := except_bind_eq_ok.mp read
  obtain ⟨column, -, read⟩ := except_bind_eq_ok.mp read
  obtain rfl := Except.ok.inj read
  intro c mem_name
  rw [String.toList_ofList] at mem_name
  exact not_isSeparator_of_mem_baseName mem_name

end TraceInquest
