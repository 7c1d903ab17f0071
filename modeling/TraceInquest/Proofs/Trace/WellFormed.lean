import TraceInquest.Proofs.Pattern.Passage
import TraceInquest.Proofs.Trace.Lines
import TraceInquest.Proofs.Trace.Numbers

/-! # Frames are well formed

Whatever the line and the rules, a frame that is read names a file without directories and a
function without blanks around it, both taken from the line, and its numbers are whole runs of
digits: no digit stands next to them.

* **`IsWholeNumeral before digits after`** — a run of digits bounded on both sides.
* **`TraceRule.CutsAtLine`** — the parts of a layout around its line number.
* **`exists_wholeNumeral_of_find?`** — the line number is a whole run of digits.
* **`Frame.IsReadBy rule line`** — what holds of the frames that a rule reads.
* **`frameOfLine?_wellFormed`** — it holds of every frame that is read. -/

namespace TraceInquest

open Pattern

variable {rule : TraceRule} {rules : List TraceRule} {line : List Char}
  {found : Found FramePart} {frame : Frame}

/-! ## Whole runs of digits -/

/-- Whether a run of digits has no digit next to it. -/
structure IsWholeNumeral (before digits after : List Char) : Prop where
  run : IsDigitRun digits
  bounded : ∀ c ∈ before.getLast?, Text.isDigit c = false
  bounded_behind : ∀ c ∈ after.head?, Text.isDigit c = false

/-- The parts of a layout around its line number: those in front, the last of which ends with
another character than a digit, and those behind, which begin with one if there are any. -/
structure TraceRule.CutsAtLine (rule : TraceRule) (front : List (Pattern FramePart))
    (mark : Pattern FramePart) (back : List (Pattern FramePart)) : Prop where
  layout_eq : rule.layout = seq (front ++ mark :: capture .line (many1 Text.isDigit) :: back)
  ends : ∀ text, mark.Spells text → ∃ c ∈ text.getLast?, Text.isDigit c = false
  begins : back = [] ∨ ∀ text, (seq back).Spells text → ∃ c ∈ text.head?, Text.isDigit c = false
  other : ∀ capture ∈ (seq back).captureBodies, capture.1 ≠ .line

theorem exists_getLast?_of_colon (text : List Char)
    (spelled : (literal ":" : Pattern FramePart).Spells text) :
    ∃ c ∈ text.getLast?, Text.isDigit c = false := by
  rw [spells_literal.mp spelled]
  exact ⟨':', rfl, by decide⟩

theorem exists_getLast?_of_blanks (text : List Char)
    (spelled : (many1 Text.isBlank : Pattern FramePart).Spells text) :
    ∃ c ∈ text.getLast?, Text.isDigit c = false := by
  obtain ⟨nonempty, blank⟩ := spells_run.mp spelled
  refine ⟨text.getLast nonempty, List.getLast?_eq_some_getLast nonempty, ?_⟩
  by_contra digit
  have kept := Text.not_isBlank_of_isDigit (Bool.not_eq_false _ ▸ digit)
  rw [blank _ (List.getLast_mem nonempty)] at kept
  exact absurd kept.symm Bool.false_ne_true

/-- A sequence that begins with a known text begins as the text does. -/
theorem exists_head?_of_spells {mark : String} {parts : List (Pattern FramePart)}
    (begins : ∃ c ∈ mark.toList.head?, Text.isDigit c = false) (text : List Char)
    (spelled : (seq (literal mark :: parts)).Spells text) :
    ∃ c ∈ text.head?, Text.isDigit c = false := by
  obtain ⟨rest, -, rfl⟩ := spells_seq_literal.mp spelled
  obtain ⟨c, first, no_digit⟩ := begins
  refine ⟨c, ?_, no_digit⟩
  rw [List.head?_append, Option.mem_def.mp first]
  rfl

/-- The parts behind the line number of a JavaScript frame. -/
def columnTail : List (Pattern FramePart) :=
  [":", capture .column (many1 Text.isDigit), ")"]

theorem cutsAtLine_javascript :
    ∃ front, TraceRule.javascript.CutsAtLine front ":" columnTail :=
  ⟨["at", many1 Text.isBlank, capture .function (few1 TraceRule.isInLine), many1 Text.isBlank, "(",
      capture .path (few1 TraceRule.isInLine)],
    layout_javascript, exists_getLast?_of_colon, .inr (exists_head?_of_spells ⟨':', rfl, by decide⟩),
    by simp [columnTail]⟩

/-- In every layout the line number is bounded by other characters, or it comes last. -/
theorem exists_cutsAtLine (rule : TraceRule) :
    ∃ front mark back, rule.CutsAtLine front mark back := by
  cases rule with
  | rubyFrom =>
    exact ⟨["from", many1 Text.isBlank, capture .path (few1 TraceRule.isInLine)], ":", _,
      layout_rubyFrom, exists_getLast?_of_colon,
      .inr (exists_head?_of_spells ⟨':', rfl, by decide⟩), by simp⟩
  | rubyIn =>
    exact ⟨[capture .path (few1 TraceRule.isInLine)], ":", _,
      layout_rubyIn, exists_getLast?_of_colon,
      .inr (exists_head?_of_spells ⟨':', rfl, by decide⟩), by simp⟩
  | rubyBare =>
    exact ⟨[capture .path (seq [many1 TraceRule.isInLine, ".", words ["rb", "rake", "erb"]])], ":",
      [], layout_rubyBare, exists_getLast?_of_colon, .inl rfl, by simp⟩
  | javascript =>
    obtain ⟨front, cuts⟩ := cutsAtLine_javascript
    exact ⟨front, ":", columnTail, cuts⟩
  | python =>
    exact ⟨["File", many1 Text.isBlank, "\"", capture .path (few1 TraceRule.isInLine), "\",",
        many1 Text.isBlank, "line"], many1 Text.isBlank, _,
      layout_python, exists_getLast?_of_blanks,
      .inr (exists_head?_of_spells ⟨',', rfl, by decide⟩), by simp⟩
  | java =>
    exact ⟨["at", many1 Text.isBlank, capture .function (few1 TraceRule.isInLine), "(",
        capture .path (few1 TraceRule.isInLine)], ":", _,
      layout_java, exists_getLast?_of_colon,
      .inr (exists_head?_of_spells ⟨')', rfl, by decide⟩), by simp⟩
  | generic =>
    exact ⟨[capture .function (many1 Text.isWordChar), many1 Text.isBlank,
        capture .path (few1 TraceRule.isInLine)], ":", [],
      layout_generic, exists_getLast?_of_colon, .inl rfl, by simp⟩

variable {front back : List (Pattern FramePart)} {mark : Pattern FramePart}

/-- The line number goes up to where the parts behind it begin. -/
theorem exists_digits_of_attempt (cuts : rule.CutsAtLine front mark back)
    {middle stop : Cursor FramePart}
    (succeeds : (seq (capture .line (many1 Text.isDigit) :: back)).attempt middle some = some stop) :
    ∃ digits rest, middle.rest = digits ++ rest ∧ IsDigitRun digits ∧
      (∀ c ∈ rest.head?, Text.isDigit c = false) ∧
        stop ∈ (seq back).stops ((middle.behind digits rest).note .line middle.rest) := by
  rcases cuts.begins with rfl | begins
  · -- the number comes last, so that nothing keeps it from being as long as it can be
    rw [attempt_seq_cons, attempt_capture] at succeeds
    obtain ⟨digits, rest, text, nonempty, all, maximal, ends⟩ :=
      exists_of_attempt_many1 (fun there => ⟨_, rfl⟩) succeeds
    exact ⟨digits, rest, text, ⟨nonempty, all⟩, maximal,
      mem_stops_seq_nil.mpr (Option.some_inj.mp ends).symm⟩
  · -- the part behind the number begins with a character that is no digit
    obtain ⟨_, noted, attempted⟩ := exists_attempt_of_seq_cons succeeds
    obtain ⟨_, run_mem, rfl⟩ := mem_stops_capture.mp noted
    obtain ⟨digits, rest, text, nonempty, all, rfl⟩ := mem_stops_run.mp run_mem
    rw [attempt_some] at attempted
    have stop_mem := List.mem_of_head? attempted
    obtain ⟨taken, rest_eq, spelled⟩ := spells_of_mem_stops stop_mem
    obtain ⟨c, first, no_digit⟩ := begins taken spelled
    refine ⟨digits, rest, text, ⟨nonempty, all⟩, fun d first' => ?_, stop_mem⟩
    have rest_eq : rest = taken ++ stop.rest := rest_eq
    rw [rest_eq, List.head?_append, Option.mem_def.mp first, Option.some_or, Option.mem_some]
      at first'
    rwa [← first']

/-- What is captured as the line is a whole run of digits, and the rest of the layout is matched
behind it. -/
theorem exists_wholeNumeral_of_find? (cuts : rule.CutsAtLine front mark back)
    (find : rule.layout.find? line = some found) :
    ∃ before digits after, line = before ++ digits ++ after ∧ IsWholeNumeral before digits after ∧
      found.captured .line = digits ∧
        ∃ inner : Cursor FramePart, inner.rest = after ∧ found.stop ∈ (seq back).stops inner := by
  obtain ⟨skipped, line_eq, attempted⟩ := exists_isBehind_of_find? find
  rw [cuts.layout_eq] at attempted
  obtain ⟨first, first_mem, attempted⟩ := exists_attempt_of_seq_append attempted
  obtain ⟨middle, middle_mem, attempted⟩ := exists_attempt_of_seq_cons attempted
  obtain ⟨digits, rest, middle_eq, run, bounded_behind, stop_mem⟩ :=
    exists_digits_of_attempt cuts attempted
  obtain ⟨taken, start_eq, -⟩ := passes_of_mem_stops first_mem
  obtain ⟨marked, first_eq, spelled⟩ := spells_of_mem_stops middle_mem
  -- the part in front of the number ends with a character that is no digit
  obtain ⟨c, last, no_digit⟩ := cuts.ends marked spelled
  refine ⟨skipped ++ taken ++ marked, digits, rest, ?_, ⟨run, ?_, bounded_behind⟩, ?_, _, ?_, stop_mem⟩
  · have start_eq : found.start = taken ++ first.rest := start_eq
    rw [line_eq, start_eq, first_eq, middle_eq]
    simp
  · intro d last'
    rw [List.getLast?_append, Option.mem_def.mp last, Option.some_or, Option.mem_some] at last'
    rwa [← last']
  · rw [Found.captured, Found.captured?, find?_captured_of_mem_stops cuts.other stop_mem]
    simp [Cursor.note, middle_eq]
  · rfl

/-- What is captured as the column of a JavaScript frame is a whole run of digits behind the line
number and a colon. -/
theorem exists_wholeNumeral_column {inner : Cursor FramePart} {before after : List Char}
    (inner_eq : inner.rest = after) (mem : found.stop ∈ (seq columnTail).stops inner) :
    ∃ column rest, after = ':' :: (column ++ rest) ∧
      IsWholeNumeral (before ++ [':']) column rest ∧ found.captured? .column = some column := by
  obtain ⟨middle, middle_mem, mem⟩ := mem_stops_seq_cons.mp mem
  obtain ⟨behind, colon_eq, rfl⟩ := mem_stops_literal.mp middle_mem
  obtain ⟨_, noted, mem⟩ := mem_stops_seq_cons.mp mem
  obtain ⟨_, run_mem, rfl⟩ := mem_stops_capture.mp noted
  obtain ⟨column, rest, behind_eq, nonempty, all, rfl⟩ := mem_stops_run.mp run_mem
  obtain ⟨last, bracket_mem, ended⟩ := mem_stops_seq_cons.mp mem
  obtain ⟨others, rest_eq, rfl⟩ := mem_stops_literal.mp bracket_mem
  rw [mem_stops_seq_nil] at ended
  have rest_eq : rest = ")".toList ++ others := rest_eq
  have behind_eq : behind = column ++ rest := behind_eq
  refine ⟨column, rest, ?_, ⟨⟨nonempty, all⟩, ?_, ?_⟩, ?_⟩
  · rw [← inner_eq, colon_eq, behind_eq]
    rfl
  · simp only [List.getLast?_concat, Option.mem_some_iff, forall_eq']
    decide
  · rw [rest_eq]
    exact fun c first => Option.some_inj.mp first ▸ by decide
  · rw [Found.captured?, ended]
    simp [Cursor.note, behind_eq]

/-! ## File names and functions -/

/-- What is captured as a path lies in one line of the text. -/
theorem isInLine_of_captured_path (find : rule.layout.find? line = some found) :
    ∀ c ∈ found.captured .path, TraceRule.isInLine c = true := by
  rw [Found.captured]
  cases captured : found.captured? .path with
  | none => simp
  | some path =>
    obtain ⟨body, body_mem, spelled⟩ := (isIn_of_find? find).spells_of_captured? captured
    have one_of : body = few1 TraceRule.isInLine ∨
        body = seq [many1 TraceRule.isInLine, ".", words ["rb", "rake", "erb"]] := by
      cases rule with
      | rubyFrom => simp_all [layout_rubyFrom, rubyTail]
      | rubyIn => simp_all [layout_rubyIn, rubyTail]
      | rubyBare => simp_all [layout_rubyBare]
      | javascript => simp_all [layout_javascript, javascriptTail]
      | python => simp_all [layout_python]
      | java => simp_all [layout_java]
      | generic => simp_all [layout_generic]
    rcases one_of with rfl | rfl
    · exact (spells_run.mp spelled).2
    · obtain ⟨stem, _, stem_spelled, dot_spelled, rfl⟩ := spells_seq_cons.mp spelled
      obtain ⟨_, ending_spelled, rfl⟩ := spells_seq_literal.mp dot_spelled
      obtain ⟨_, _, word_spelled, rfl, rfl⟩ := spells_seq_cons.mp ending_spelled
      obtain ⟨word, mem, rfl⟩ := (spells_words (by decide)).mp word_spelled
      have endings : ∀ word ∈ ["rb", "rake", "erb"],
          (word.toList.all TraceRule.isInLine) = true := by decide
      rw [List.append_nil]
      refine List.forall_mem_append.mpr ⟨(spells_run.mp stem_spelled).2, ?_⟩
      refine List.forall_mem_append.mpr ⟨List.all_eq_true.mp (by decide), ?_⟩
      exact List.all_eq_true.mp (endings word mem)

theorem isTrimmed_unknownFunction : Text.IsTrimmed unknownFunction.toList :=
  ⟨by decide, by decide, by decide⟩

theorem isTrimmed_functionName (captured : List Char) :
    Text.IsTrimmed (functionName captured).toList := by
  rw [functionName]
  split
  · exact isTrimmed_unknownFunction
  · rename_i left
    rw [String.toList_ofList]
    exact ⟨by simpa using left, Text.head?_strip captured, Text.getLast?_strip captured⟩

theorem functionName_eq_or_isPart (captured : List Char) :
    functionName captured = unknownFunction ∨ (functionName captured).toList <:+: captured := by
  rw [functionName]
  split
  · exact .inl rfl
  · rw [String.toList_ofList]
    exact .inr (Text.strip_infix captured)

theorem not_isBlank_of_getLast?_baseName {path : List Char}
    (last : ∀ c ∈ path.getLast?, Text.isBlank c = false) :
    ∀ c ∈ (baseName path).getLast?, Text.isBlank c = false := by
  intro c ends
  obtain ⟨front, path_eq⟩ := baseName_suffix path
  refine last c ?_
  rw [← path_eq, List.getLast?_append, Option.mem_def.mp ends]
  rfl

/-! ## Frames -/

/-- What holds of the frame that a rule reads in a line. -/
structure Frame.IsReadBy (rule : TraceRule) (line : List Char) (frame : Frame) : Prop where
  filename_clean : ∀ c ∈ frame.filename.toList, c ≠ '/' ∧ c ≠ '\\' ∧ c ≠ '\n'
  filename_last : ∀ c ∈ frame.filename.toList.getLast?, Text.isBlank c = false
  filename_infix : frame.filename.toList <:+: line
  function_trimmed : Text.IsTrimmed frame.function.toList
  function_infix : frame.function = unknownFunction ∨ frame.function.toList <:+: line
  line_nonneg : 0 ≤ frame.line
  column_isSome : frame.column.isSome = true ↔ rule = .javascript
  numbers : ∃ before digits after, line = before ++ digits ++ after ∧
    IsWholeNumeral before digits after ∧ frame.line = Text.numeralValue digits ∧
      ∀ column ∈ frame.column, ∃ columnDigits rest, after = ':' :: (columnDigits ++ rest) ∧
        IsWholeNumeral (before ++ digits ++ [':']) columnDigits rest ∧
          column = Text.numeralValue columnDigits

/-- Only the layout of JavaScript frames captures a column. -/
theorem captured?_column_eq_none (other : rule ≠ .javascript)
    (find : rule.layout.find? line = some found) : found.captured? .column = none := by
  cases captured : found.captured? .column with
  | none => rfl
  | some column =>
    obtain ⟨body, body_mem, -⟩ := (isIn_of_find? find).spells_of_captured? captured
    cases rule with
    | rubyFrom => simp [layout_rubyFrom, rubyTail] at body_mem
    | rubyIn => simp [layout_rubyIn, rubyTail] at body_mem
    | rubyBare => simp [layout_rubyBare] at body_mem
    | javascript => exact absurd rfl other
    | python => simp [layout_python] at body_mem
    | java => simp [layout_java] at body_mem
    | generic => simp [layout_generic] at body_mem

/-- The frame made of a find, with the values of its numbers. -/
theorem eq_of_frameOf (read : frameOf found = .ok frame) :
    frame = {
      filename := String.ofList (baseName (Text.strip (found.captured .path)))
      function := ((found.captured? .function).map functionName).getD unknownFunction
      line := Text.numeralValue (found.captured .line)
      column := (found.captured? .column).map fun column => (Text.numeralValue column : Int) } := by
  obtain ⟨line, line_read, read⟩ := except_bind_eq_ok.mp read
  obtain ⟨column, column_read, read⟩ := except_bind_eq_ok.mp read
  obtain rfl := Except.ok.inj read
  obtain ⟨-, rfl⟩ := Text.readNumeral_eq_ok_iff.mp line_read
  cases captured : found.captured? .column with
  | none =>
    rw [captured] at column_read
    obtain rfl := Except.ok.inj column_read
    rfl
  | some digits =>
    rw [captured, Option.mapM_some] at column_read
    obtain ⟨value, value_read, same⟩ := except_map_eq_ok.mp column_read
    obtain ⟨-, rfl⟩ := Text.readNumeral_eq_ok_iff.mp value_read
    rw [← same]
    rfl

/-- The numbers of a frame are whole runs of digits. -/
theorem exists_wholeNumerals_of_frameOf (find : rule.layout.find? line = some found)
    (read : frameOf found = .ok frame) :
    ∃ before digits after, line = before ++ digits ++ after ∧
      IsWholeNumeral before digits after ∧ frame.line = Text.numeralValue digits ∧
        ∀ column ∈ frame.column, ∃ columnDigits rest, after = ':' :: (columnDigits ++ rest) ∧
          IsWholeNumeral (before ++ digits ++ [':']) columnDigits rest ∧
            column = Text.numeralValue columnDigits := by
  rw [eq_of_frameOf read]
  -- only one layout has a column
  by_cases javascript : rule = .javascript
  · obtain rfl := javascript
    obtain ⟨front, cuts⟩ := cutsAtLine_javascript
    obtain ⟨before, digits, after, line_eq, whole, captured, inner, inner_eq, stop_mem⟩ :=
      exists_wholeNumeral_of_find? cuts find
    obtain ⟨column, rest, after_eq, column_whole, column_captured⟩ :=
      @exists_wholeNumeral_column _ _ (before ++ digits) _ inner_eq stop_mem
    refine ⟨before, digits, after, line_eq, whole, by rw [captured], fun value given => ?_⟩
    rw [column_captured] at given
    exact ⟨column, rest, after_eq, column_whole, (Option.some_inj.mp given).symm⟩
  · obtain ⟨front, mark, back, cuts⟩ := exists_cutsAtLine rule
    obtain ⟨before, digits, after, line_eq, whole, captured, -⟩ :=
      exists_wholeNumeral_of_find? cuts find
    refine ⟨before, digits, after, line_eq, whole, by rw [captured], fun value given => ?_⟩
    rw [captured?_column_eq_none javascript find] at given
    cases given

/-- A JavaScript frame has a column, and no other frame has one. -/
theorem column_isSome_iff (find : rule.layout.find? line = some found)
    (read : frameOf found = .ok frame) : frame.column.isSome = true ↔ rule = .javascript := by
  rw [eq_of_frameOf read, Option.isSome_map]
  constructor
  · intro given
    by_contra other
    rw [captured?_column_eq_none other find] at given
    cases given
  · rintro rfl
    obtain ⟨front, cuts⟩ := cutsAtLine_javascript
    obtain ⟨before, digits, after, -, -, -, inner, inner_eq, stop_mem⟩ :=
      exists_wholeNumeral_of_find? cuts find
    obtain ⟨column, rest, -, -, captured⟩ := @exists_wholeNumeral_column _ _ [] _ inner_eq stop_mem
    rw [captured]
    rfl

/-- The frame made of a find of a layout is well formed. -/
theorem isReadBy_of_frameOf (find : rule.layout.find? line = some found)
    (read : frameOf found = .ok frame) : frame.IsReadBy rule line := by
  have filename_eq : frame.filename.toList = baseName (Text.strip (found.captured .path)) := by
    rw [eq_of_frameOf read, String.toList_ofList]
  have function_eq : frame.function =
      ((found.captured? .function).map functionName).getD unknownFunction := by
    rw [eq_of_frameOf read]
  have in_path : frame.filename.toList <:+: found.captured .path := by
    rw [filename_eq]
    exact (baseName_suffix _).isInfix.trans (Text.strip_infix _)
  have path_in_line := (isIn_of_find? find).infix_captured .path
  refine ⟨fun c mem => ?_, ?_, in_path.trans path_in_line, ?_, ?_, ?_, column_isSome_iff find read,
    exists_wholeNumerals_of_frameOf find read⟩
  · have in_line := isInLine_of_captured_path find c (in_path.subset mem)
    rw [filename_eq] at mem
    have no_separator := not_isSeparator_of_mem_baseName mem
    simp only [isSeparator, Bool.or_eq_false_iff, beq_eq_false_iff_ne] at no_separator
    exact ⟨no_separator.1, no_separator.2, by simpa [TraceRule.isInLine] using in_line⟩
  · rw [filename_eq]
    exact not_isBlank_of_getLast?_baseName (Text.getLast?_strip _)
  · rw [function_eq]
    cases found.captured? .function with
    | none => exact isTrimmed_unknownFunction
    | some captured => exact isTrimmed_functionName captured
  · rw [function_eq]
    cases captured_eq : found.captured? .function with
    | none => exact .inl rfl
    | some captured =>
      refine (functionName_eq_or_isPart captured).imp_right fun in_captured => ?_
      exact in_captured.trans ((isIn_of_find? find).infix_of_captured? captured_eq)
  · rw [eq_of_frameOf read]
    exact Int.natCast_nonneg _

/-- Whatever the rules and their order, the frame that is read in a line is well formed for the
first rule that is found in the line. -/
theorem frameOfLine?_wellFormed (read : frameOfLine? rules line = .ok (some frame)) :
    ∃ rule, rules.find? (fun rule => rule.layout.isFoundIn line) = some rule ∧
      frame.IsReadBy rule line := by
  rw [frameOfLine?] at read
  split at read
  · rename_i found first
    obtain ⟨frame, made, same⟩ := except_map_eq_ok.mp read
    obtain rfl := Option.some_inj.mp same
    obtain ⟨earlier, rule, later, rfl, find, others⟩ := List.findSome?_eq_some_iff.mp first
    refine ⟨rule, ?_, isReadBy_of_frameOf find made⟩
    rw [List.find?_eq_some_iff_append]
    refine ⟨by rw [isFoundIn, find]; rfl, earlier, later, rfl, fun other mem => ?_⟩
    rw [isFoundIn, others other mem]
    rfl
  · cases read

/-- A function with a blank in it, a path with separators of both kinds and a blank at its end, and
digits of two scripts. -/
theorem frameOfLine?_wellFormed_javascript :
    frameOfLine? [.python, .javascript, .generic] "at g f  (x/a\\b .js :03:٧)".toList =
        .ok (some ⟨"b .js", "g f", 3, some 7⟩) ∧
      ∃ rule, [TraceRule.python, .javascript, .generic].find?
          (fun rule => rule.layout.isFoundIn "at g f  (x/a\\b .js :03:٧)".toList) = some rule ∧
        Frame.IsReadBy rule "at g f  (x/a\\b .js :03:٧)".toList ⟨"b .js", "g f", 3, some 7⟩ := by
  have read : frameOfLine? [.python, .javascript, .generic] "at g f  (x/a\\b .js :03:٧)".toList =
      .ok (some ⟨"b .js", "g f", 3, some 7⟩) := by decide +kernel
  exact ⟨read, frameOfLine?_wellFormed read⟩

end TraceInquest
