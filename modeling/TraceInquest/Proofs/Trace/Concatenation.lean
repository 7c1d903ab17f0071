import TraceInquest.Proofs.Text.Lines
import TraceInquest.Proofs.Trace.Numbers

/-! # Traces that are put together

Each line of a trace is read on its own, and the first line that fails decides about the trace. The
frames of two texts with a line break between them are therefore those of the one and then those of
the other. The break may belong together with a break at the edge of one of the texts; what this
changes are empty lines, and these have no frames.

* **`framesOfLines_append`** — lines behind others are read when these have been.
* **`framesOfLines_filled`** — empty lines do not matter.
* **`parseTrace_append`** — two texts with line breaks between them.
* **`parseTrace_in_parts`** — which failure a trace has. -/

namespace TraceInquest

open Text

variable {rules : List TraceRule} {fault : NumeralTooLong}

/-! ## Empty lines -/

theorem find?_layout_nil (rule : TraceRule) : rule.layout.find? [] = none := by
  by_cases python : rule = .python
  · rw [python]
    exact find?_python_eq_none List.not_mem_nil
  · have absent : ¬":".toList <:+: [] := by decide
    exact find?_eq_none_of_not_hasNumberAfter python (not_hasNumberAfter_of_not_isInfix absent)

/-- An empty line is no frame. -/
theorem frameOfLine?_nil (rules : List TraceRule) : frameOfLine? rules [] = .ok none :=
  frameOfLine?_eq_none_iff.mpr fun rule _ => find?_layout_nil rule

/-! ## Lines behind lines -/

theorem framesOfLines_cons (rules : List TraceRule) (line : List Char) (lines : List (List Char)) :
    framesOfLines rules (line :: lines) = (do
      let frame? ← frameOfLine? rules line
      let frames ← framesOfLines rules lines
      return frame?.toList ++ frames) := by
  rw [framesOfLines, List.mapM_cons, framesOfLines]
  cases frameOfLine? rules line with
  | error fault => rfl
  | ok frame? =>
    cases lines.mapM (frameOfLine? rules) with
    | error fault => rfl
    | ok frames => cases frame? <;> rfl

/-- Lines behind others are read when these have been. -/
theorem framesOfLines_append (rules : List TraceRule) (first second : List (List Char)) :
    framesOfLines rules (first ++ second) = (do
      let frames ← framesOfLines rules first
      let others ← framesOfLines rules second
      return frames ++ others) := by
  rw [framesOfLines, List.mapM_append, framesOfLines, framesOfLines]
  cases first.mapM (frameOfLine? rules) with
  | error fault => rfl
  | ok frames =>
    cases second.mapM (frameOfLine? rules) with
    | error fault => rfl
    | ok others => exact congrArg Except.ok List.filterMap_append

/-- Empty lines do not matter. -/
theorem framesOfLines_filled (rules : List TraceRule) (lines : List (List Char)) :
    framesOfLines rules (filled lines) = framesOfLines rules lines := by
  induction lines with
  | nil => rfl
  | cons line lines ih =>
    cases line with
    | nil =>
      rw [filled_nil_cons, ih, framesOfLines_cons, frameOfLine?_nil]
      cases framesOfLines rules lines <;> rfl
    | cons c line =>
      have kept : filled ((c :: line) :: lines) = (c :: line) :: filled lines := rfl
      rw [kept, framesOfLines_cons, framesOfLines_cons, ih]

/-! ## Texts behind texts -/

/-- The frames of two texts with line breaks between them are those of the one and then those of the
other; if one of the texts fails, so do both, the first one first. -/
theorem parseTrace_append {separator : String} (nonempty : separator.toList ≠ [])
    (breaks : ∀ c ∈ separator.toList, isLineBreak c = true) (before behind : String) :
    parseTrace rules (before ++ separator ++ behind) = (do
      let frames ← parseTrace rules before
      let others ← parseTrace rules behind
      return frames ++ others) := by
  have lines_eq := filled_splitLines_append nonempty breaks before.toList behind.toList
  rw [parseTrace, String.toList_append, String.toList_append, List.append_assoc,
    ← framesOfLines_filled, lines_eq, framesOfLines_append, framesOfLines_filled,
    framesOfLines_filled]
  rfl

/-- Lines fail exactly if one of them does, and with the fault of the first one that does. -/
theorem framesOfLines_eq_error_iff {lines : List (List Char)} :
    framesOfLines rules lines = .error fault ↔
      ∃ earlier line later, lines = earlier ++ line :: later ∧
        (∀ other ∈ earlier, ∃ frame?, frameOfLine? rules other = .ok frame?) ∧
          frameOfLine? rules line = .error fault := by
  rw [framesOfLines, except_map_eq_error, except_mapM_eq_error]

/-- A line fails exactly if the find that decides captures a run of digits that is too long. -/
theorem exists_frameOfLine?_eq_error_iff {line : List Char} :
    (∃ fault, frameOfLine? rules line = .error fault) ↔
      ∃ found, IsFirstFind rules line found ∧ ∃ label, (label = .line ∨ label = .column) ∧
        ∃ digits, found.captured? label = some digits ∧ IsDigitRun digits ∧
          4300 < digits.length := by
  simp only [frameOfLine?_eq_error_iff]
  constructor
  · rintro ⟨fault, found, digits, decided, first, -⟩
    obtain ⟨mem, long⟩ := long_of_find?_numbers first
    obtain ⟨label, number, captured⟩ := mem_numbers_iff.mp mem
    have ⟨_, rule, _, _, _, find⟩ := decided
    have digit_run := isDigitRun_of_mem_numbers find mem
    exact ⟨found, decided, label, number, digits, captured, digit_run, long⟩
  · rintro ⟨found, decided, label, number, digits, captured, -, long⟩
    have mem := mem_numbers_iff.mpr ⟨label, number, captured⟩
    obtain ⟨first, first_find⟩ := exists_find?_numbers mem long
    exact ⟨_, found, first, decided, first_find, rfl⟩

/-- What the frames of texts with a line break between them are, which lines fail, and with which of
their faults a text fails. -/
theorem parseTrace_in_parts (rules : List TraceRule) :
    (∀ before behind, ∀ separator ∈ lineSeparators,
      parseTrace rules (before ++ separator ++ behind) = (do
        let frames ← parseTrace rules before
        let others ← parseTrace rules behind
        return frames ++ others)) ∧
    (∀ line, (∃ fault, frameOfLine? rules line = .error fault) ↔
      ∃ found, IsFirstFind rules line found ∧ ∃ label, (label = .line ∨ label = .column) ∧
        ∃ digits, found.captured? label = some digits ∧ IsDigitRun digits ∧
          4300 < digits.length) ∧
    (∀ text fault, parseTrace rules text = .error fault ↔
      ∃ earlier line later, splitLines text.toList = earlier ++ line :: later ∧
        (∀ other ∈ earlier, ∃ frame?, frameOfLine? rules other = .ok frame?) ∧
          frameOfLine? rules line = .error fault) := by
  refine ⟨fun before behind separator mem => ?_, fun line => exists_frameOfLine?_eq_error_iff,
    fun text fault => framesOfLines_eq_error_iff⟩
  obtain ⟨nonempty, breaks⟩ := isLineBreak_of_mem_lineSeparators mem
  exact parseTrace_append nonempty breaks before behind

/-- The line feed between the two texts belongs together with the carriage return in front of it. -/
theorem parseTrace_in_parts_fused :
    "\n" ∈ lineSeparators ∧ parseTrace TraceRule.all ("a.rb:3\r" ++ "\n" ++ "\nb.rb:4") =
      .ok [{ filename := "a.rb", line := 3 }, { filename := "b.rb", line := 4 }] := by
  have separator : "\n" ∈ lineSeparators := by decide
  refine ⟨separator, ?_⟩
  rw [(parseTrace_in_parts TraceRule.all).1 "a.rb:3\r" "\nb.rb:4" "\n" separator]
  rfl

end TraceInquest
