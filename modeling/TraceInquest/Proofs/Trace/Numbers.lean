import TraceInquest.Proofs.Except
import TraceInquest.Proofs.Pattern.CapturedTexts
import TraceInquest.Proofs.Trace.Layout

/-! # The numbers of a frame

What a layout captures as a line or a column is a run of digits. A frame fails to be made of a find
exactly if one of these runs is too long, and then the first layout that is found in the line
decides about the failure: no other one is tried.

* **`isDigitRun_of_mem_numbers`** — the captured numbers are runs of digits.
* **`frameOf_eq_error_iff`** — no frame is made if one of them is too long.
* **`IsFirstFind`** — the find that decides about a line.
* **`frameOfLine?_eq_error_iff`**, **`frameOfLine?_eq_none_iff`** — lines that fail, and lines
  without a frame.
* **`exists_frameOfLine?_eq_ok`** — lines without long runs of digits do not fail. -/

namespace TraceInquest

open Pattern

/-! ## Captured numbers -/

/-- What is captured as a number, in the order in which it is read. -/
def Found.numbers (found : Found FramePart) : List (List Char) :=
  [FramePart.line, FramePart.column].filterMap found.captured?

/-- Whether a text is a run of digits, however long. -/
structure IsDigitRun (digits : List Char) : Prop where
  nonempty : digits ≠ []
  digit : ∀ c ∈ digits, Text.isDigit c = true

/-- Whether there is no run of digits in a text that is too long to be read. -/
def HasShortNumerals (text : List Char) : Prop :=
  ∀ digits, digits <:+: text → IsDigitRun digits → digits.length ≤ Text.maxNumeralLength

variable {rule : TraceRule} {rules : List TraceRule} {line : List Char}
  {found : Found FramePart} {fault : Text.NumeralTooLong}

/-- Lines and columns are captured as runs of digits in all layouts. -/
theorem body_of_mem_captureBodies {label : FramePart} {body : Pattern FramePart}
    (number : label = .line ∨ label = .column)
    (mem : (label, body) ∈ rule.layout.captureBodies) : body = many1 Text.isDigit := by
  have other_label : label ≠ .path ∧ label ≠ .function := by
    rcases number with rfl | rfl <;> decide
  have one_of : (label = .line ∨ label = .column) ∧ body = many1 Text.isDigit := by
    cases rule with
    | rubyFrom => simp_all [layout_rubyFrom, rubyTail]
    | rubyIn => simp_all [layout_rubyIn, rubyTail]
    | rubyBare => simp_all [layout_rubyBare]
    | javascript => simp_all [layout_javascript, javascriptTail, ← or_and_right]
    | python => simp_all [layout_python]
    | java => simp_all [layout_java]
    | generic => simp_all [layout_generic]
  exact one_of.2

theorem mem_numbers_iff {digits : List Char} :
    digits ∈ found.numbers ↔ ∃ label, (label = .line ∨ label = .column) ∧
      found.captured? label = some digits := by
  simp [Found.numbers]

/-- The captured numbers are runs of digits. -/
theorem isDigitRun_of_mem_numbers (find : rule.layout.find? line = some found)
    {digits : List Char} (mem : digits ∈ found.numbers) : IsDigitRun digits := by
  obtain ⟨label, number, captured⟩ := mem_numbers_iff.mp mem
  obtain ⟨body, body_mem, spelled⟩ := (isIn_of_find? find).spells_of_captured? captured
  rw [body_of_mem_captureBodies number body_mem] at spelled
  obtain ⟨nonempty, all⟩ := spells_run.mp spelled
  exact ⟨nonempty, all⟩

/-- The captured numbers are parts of the line. -/
theorem infix_of_mem_numbers (find : rule.layout.find? line = some found) {digits : List Char}
    (mem : digits ∈ found.numbers) : digits <:+: line := by
  obtain ⟨label, -, captured⟩ := mem_numbers_iff.mp mem
  exact (isIn_of_find? find).infix_of_captured? captured

/-- Numbers cannot be read if one of them is too long; the first one that is decides. -/
theorem mapM_readNumeral_eq_error_iff {numbers : List (List Char)} :
    numbers.mapM Text.readNumeral = .error fault ↔
      ∃ digits, numbers.find? (Text.maxNumeralLength < ·.length) = some digits ∧
        fault = ⟨digits.length⟩ := by
  simp only [except_mapM_eq_error, Text.readNumeral_eq_error_iff, Text.readNumeral_eq_ok_iff,
    List.find?_eq_some_iff_append, decide_eq_true_eq, Bool.not_eq_true', decide_eq_false_iff_not,
    Nat.not_lt, exists_and_left, exists_eq, and_true]
  constructor
  · rintro ⟨before, digits, after, split, short, long, fault_eq⟩
    exact ⟨digits, ⟨long, before, after, split, short⟩, fault_eq⟩
  · rintro ⟨digits, ⟨long, before, after, split, short⟩, fault_eq⟩
    exact ⟨before, digits, after, split, short, long, fault_eq⟩

/-- No frame is made of a find if one of the captured numbers is too long. -/
theorem frameOf_eq_error_iff :
    frameOf found = .error fault ↔
      ∃ digits, found.numbers.find? (Text.maxNumeralLength < ·.length) = some digits ∧
        fault = ⟨digits.length⟩ := by
  rw [← mapM_readNumeral_eq_error_iff, frameOf, Found.captured, Found.numbers]
  have nothing_read : Text.readNumeral [] = .ok 0 := by decide
  -- whether there is a line and whether there is a column decides which numbers are read
  cases line : found.captured? .line with
  | none =>
    cases column : found.captured? .column with
    | none => simp [line, column, nothing_read, except_bind_eq_error, pure, Except.pure]
    | some columns =>
      simp [line, column, nothing_read, except_bind_eq_error, pure, Except.pure, Functor.map,
        except_map_eq_error]
  | some lines =>
    cases column : found.captured? .column with
    | none => simp [line, column, except_bind_eq_error, pure, Except.pure]
    | some columns =>
      simp [line, column, except_bind_eq_error, pure, Except.pure, Functor.map,
        except_map_eq_error]

theorem long_of_find?_numbers {digits : List Char}
    (first : found.numbers.find? (Text.maxNumeralLength < ·.length) = some digits) :
    digits ∈ found.numbers ∧ Text.maxNumeralLength < digits.length :=
  ⟨List.mem_of_find?_eq_some first, by simpa using List.find?_some first⟩

/-- If some number that is captured is too long, there is a first one. -/
theorem exists_find?_numbers {digits : List Char} (mem : digits ∈ found.numbers)
    (long : Text.maxNumeralLength < digits.length) :
    ∃ first, found.numbers.find? (Text.maxNumeralLength < ·.length) = some first := by
  rw [← Option.isSome_iff_exists, List.find?_isSome]
  exact ⟨digits, mem, decide_eq_true long⟩

/-! ## The find that decides -/

/-- Whether the first rule that is found in a line is found there like that. -/
def IsFirstFind (rules : List TraceRule) (line : List Char) (found : Found FramePart) : Prop :=
  ∃ earlier rule later, rules = earlier ++ rule :: later ∧
    (∀ other ∈ earlier, other.layout.find? line = none) ∧ rule.layout.find? line = some found

theorem isFirstFind_iff :
    IsFirstFind rules line found ↔
      (rules.findSome? fun rule => rule.layout.find? line) = some found := by
  rw [List.findSome?_eq_some_iff]
  constructor
  · rintro ⟨earlier, rule, later, split, others, find⟩
    exact ⟨earlier, rule, later, split, find, others⟩
  · rintro ⟨earlier, rule, later, split, find, others⟩
    exact ⟨earlier, rule, later, split, others, find⟩

/-- A line fails exactly if the find that decides has a number that is too long, and the first of
its numbers that is decides about the fault. -/
theorem frameOfLine?_eq_error_iff :
    frameOfLine? rules line = .error fault ↔
      ∃ found digits, IsFirstFind rules line found ∧
        found.numbers.find? (Text.maxNumeralLength < ·.length) = some digits ∧
          fault = ⟨digits.length⟩ := by
  simp only [isFirstFind_iff, exists_and_left]
  rw [frameOfLine?]
  cases decided : rules.findSome? fun rule => rule.layout.find? line with
  | none => simp
  | some found => simp [except_map_eq_error, frameOf_eq_error_iff]

/-- A line has no frame exactly if no rule is found in it. -/
theorem frameOfLine?_eq_none_iff :
    frameOfLine? rules line = .ok none ↔ ∀ rule ∈ rules, rule.layout.find? line = none := by
  rw [← List.findSome?_eq_none_iff, frameOfLine?]
  cases decided : rules.findSome? fun rule => rule.layout.find? line with
  | none => simp
  | some found => simp [except_map_eq_ok]

/-- A line without long runs of digits does not fail. -/
theorem exists_frameOfLine?_eq_ok (short : HasShortNumerals line) :
    ∃ frame?, frameOfLine? rules line = .ok frame? := by
  cases parsed : frameOfLine? rules line with
  | ok frame? => exact ⟨frame?, rfl⟩
  | error fault =>
    obtain ⟨found, digits, ⟨_, rule, _, -, -, find⟩, first, -⟩ :=
      frameOfLine?_eq_error_iff.mp parsed
    obtain ⟨mem, long⟩ := long_of_find?_numbers first
    have fits := short digits (infix_of_mem_numbers find mem) (isDigitRun_of_mem_numbers find mem)
    omega

end TraceInquest
