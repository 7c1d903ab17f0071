import TraceInquest.Proofs.Trace.Frame
import TraceInquest.Proofs.Trace.Layout

/-! # JavaScript and Java frames are recovered

Behind `at` a frame names its function and, in brackets, its place. JavaScript frames have blanks in
front of the bracket and a column behind the line; their path may hold colons and numbers of its
own, and still the last two numbers are the line and the column.

* **`javascriptCall`**, **`javaCall`** — the texts of the two kinds of frames.
* **`eq_nil_of_spells_javascriptTail`** — the line and the column stand in one place only.
* **`find?_javascript`**, **`find?_java`** — the finds of the two layouts.
* **`frameOfLine?_at`** — the frames that are read from the lines. -/

namespace TraceInquest

open Pattern

variable {before blanks function gap path digits column : List Char}

/-! ## JavaScript frames -/

/-- The text behind the path of a JavaScript frame. -/
def javascriptPlace (digits column : List Char) : List Char :=
  ":".toList ++ (digits ++ (":".toList ++ (column ++ ")".toList)))

/-- The text of a JavaScript frame, from its function on. -/
def javascriptCall (function gap path digits column : List Char) : List Char :=
  function ++ gap ++ "(".toList ++ path ++ ":".toList ++ digits ++ ":".toList ++ column ++ ")".toList

theorem javascriptCall_eq (function gap path digits column : List Char) :
    javascriptCall function gap path digits column =
      function ++ (gap ++ ("(".toList ++ (path ++ javascriptPlace digits column))) := by
  simp only [javascriptCall, javascriptPlace, List.append_assoc]

/-- A function and a path between which a bracket can be told. -/
structure IsBracketed (function path : List Char) : Prop where
  nonempty : function ≠ []
  noBracket : '(' ∉ function
  inLine : '\n' ∉ function
  path_nonempty : path ≠ []
  path_noBracket : ')' ∉ path
  path_inLine : '\n' ∉ path

/-- What is captured of the line and the column, the last capture first. -/
def javascriptCaptures (digits column : List Char) : List (FramePart × List Char × List Char) :=
  [(.column, column ++ ")".toList, ")".toList),
    (.line, digits ++ (":".toList ++ (column ++ ")".toList)), ":".toList ++ (column ++ ")".toList))]

theorem attempt_javascriptTail {here : Cursor FramePart} (numeral : Text.IsNumeral digits)
    (column_numeral : Text.IsNumeral column) (text : here.rest = javascriptPlace digits column) :
    (seq javascriptTail).attempt here some =
      some ⟨some ')', [], javascriptCaptures digits column ++ here.captured⟩ := by
  rw [javascriptTail, attempt_seq_cons, attempt_literal _ _ text, attempt_seq_cons, attempt_capture]
  refine attempt_many1_whole (":".toList ++ (column ++ ")".toList)) rfl numeral.nonempty numeral.digit
    (by simp; decide) ?_
  rw [attempt_seq_cons, attempt_literal _ (column ++ ")".toList) rfl, attempt_seq_cons,
    attempt_capture]
  refine attempt_many1_whole ")".toList rfl column_numeral.nonempty column_numeral.digit
    (by simp; decide) ?_
  rw [attempt_seq_cons, attempt_literal _ [] rfl, attempt_seq_nil]
  rfl

/-- The line and the column stand in one place only: right in front of the closing bracket. -/
theorem eq_nil_of_spells_javascriptTail {more taken rest : List Char}
    (numeral : Text.IsNumeral digits) (column_numeral : Text.IsNumeral column)
    (no_bracket : ')' ∉ more) (spelled : (seq javascriptTail).Spells taken)
    (same : more ++ javascriptPlace digits column = taken ++ rest) : more = [] := by
  obtain ⟨_, line_spelled, rfl⟩ := spells_seq_literal.mp spelled
  obtain ⟨digits', _, -, all, colon_spelled, rfl⟩ := spells_seq_number.mp line_spelled
  obtain ⟨_, column_spelled, rfl⟩ := spells_seq_literal.mp colon_spelled
  obtain ⟨column', _, -, column_all, bracket_spelled, rfl⟩ := spells_seq_number.mp column_spelled
  obtain ⟨_, rfl, rfl⟩ := spells_seq_literal.mp bracket_spelled
  have colon_digits : ':' ∉ digits := numeral.not_mem (by decide)
  have colon_digits' : ':' ∉ digits' := Text.not_mem_of_forall_isDigit all (by decide)
  have colon_column : ':' ∉ column := column_numeral.not_mem (by decide)
  have colon_column' : ':' ∉ column' := Text.not_mem_of_forall_isDigit column_all (by decide)
  have bracket_digits : ')' ∉ digits := numeral.not_mem (by decide)
  have bracket_digits' : ')' ∉ digits' := Text.not_mem_of_forall_isDigit all (by decide)
  have bracket_column : ')' ∉ column := column_numeral.not_mem (by decide)
  have bracket_column' : ')' ∉ column' := Text.not_mem_of_forall_isDigit column_all (by decide)
  -- both texts are cut at their first bracket, then at their last colons
  have whole : (more ++ ":".toList ++ digits ++ ":".toList ++ column) ++ ')' :: [] =
      (":".toList ++ digits' ++ ":".toList ++ column') ++ ')' :: rest := by
    simpa [javascriptPlace] using same
  obtain ⟨fronts, -⟩ := Text.append_cons_inj (by simp_all) (by simp_all) whole
  have columns : (more ++ ":".toList ++ digits) ++ ':' :: column =
      (":".toList ++ digits') ++ ':' :: column' := by
    simpa using fronts
  obtain ⟨lines, -⟩ := Text.append_cons_inj_of_last colon_column colon_column' columns
  have lines : more ++ ':' :: digits = [] ++ ':' :: digits' := by
    simpa using lines
  exact (Text.append_cons_inj_of_last colon_digits colon_digits' lines).1

/-- No bracket stands behind the blanks in front of which a function is cut short. -/
theorem attempt_gap_eq_none {here : Cursor FramePart} {more rest : List Char}
    {parts : List (Pattern FramePart)} (more_ne : more ≠ []) (no_bracket : '(' ∉ more)
    (ends : ∀ c ∈ more.getLast?, Text.isBlank c = false) (is_gap : Text.IsGap gap)
    (text : here.rest = more ++ (gap ++ ("(".toList ++ rest))) :
    (seq (many1 Text.isBlank :: literal "(" :: parts)).attempt here some = none := by
  rw [attempt_seq_cons]
  refine attempt_eq_none fun taken stop here_eq spelled => ?_
  refine attempt_literal_cons_eq_none (c := '(') rfl fun bracket => ?_
  obtain ⟨rest', rest_eq⟩ : ∃ rest', stop.rest = '(' :: rest' := List.head?_eq_some_iff.mp bracket
  obtain ⟨-, all⟩ := spells_run.mp spelled
  have no_bracket_taken : '(' ∉ taken := fun mem => absurd (all '(' mem) (by decide)
  have no_bracket_gap : '(' ∉ gap := is_gap.not_mem_of_kept (by decide)
  have cut : (more ++ gap) ++ '(' :: rest = taken ++ '(' :: rest' := by
    rw [← rest_eq, ← here_eq, text, List.append_assoc]
    rfl
  obtain ⟨taken_eq, -⟩ := Text.append_cons_inj (by simp_all) no_bracket_taken cut
  -- what was left of the function would be blank, and its last character is not
  have last_eq := List.getLast?_eq_some_getLast more_ne
  have kept := ends _ last_eq
  have blank : Text.isBlank (more.getLast more_ne) = true := by
    refine all _ ?_
    rw [← taken_eq]
    exact List.mem_append_left gap (List.mem_of_getLast? last_eq)
  rw [blank] at kept
  exact absurd kept.symm Bool.false_ne_true

/-- What is captured of a JavaScript frame. -/
def javascriptCallCaptures (function gap path digits column : List Char) :
    List (FramePart × List Char × List Char) :=
  javascriptCaptures digits column ++
    [(.path, path ++ javascriptPlace digits column, javascriptPlace digits column),
      (.function, javascriptCall function gap path digits column,
        gap ++ ("(".toList ++ (path ++ javascriptPlace digits column)))]

/-- A JavaScript frame is found by its layout. -/
theorem find?_javascript (before_gap : Text.IsGap before) (blanks_nonempty : blanks ≠ [])
    (blanks_gap : Text.IsGap blanks) (bracketed : IsBracketed function path)
    (starts : ∀ c ∈ function.head?, Text.isBlank c = false)
    (ends : ∀ c ∈ function.getLast?, Text.isBlank c = false) (gap_nonempty : gap ≠ [])
    (is_gap : Text.IsGap gap) (numeral : Text.IsNumeral digits)
    (column_numeral : Text.IsNumeral column) :
    TraceRule.javascript.layout.find?
        (before ++ ("at".toList ++ (blanks ++ javascriptCall function gap path digits column))) =
      some ⟨"at".toList ++ (blanks ++ javascriptCall function gap path digits column),
        ⟨some ')', [], javascriptCallCaptures function gap path digits column⟩⟩ := by
  rw [layout_javascript]
  refine find?_seq_literal_eq_some rfl before _ (before_gap.not_mem_of_kept (by decide)) ?_
  rw [attempt_seq_cons,
    attempt_literal _ (blanks ++ javascriptCall function gap path digits column) rfl,
    attempt_seq_cons]
  refine attempt_many1_whole (javascriptCall function gap path digits column) rfl blanks_nonempty
    blanks_gap.blank ?_ ?_
  · rw [javascriptCall_eq, List.head?_append_of_ne_nil function bracketed.nonempty]
    exact starts
  -- the function goes up to the blanks in front of the bracket
  rw [attempt_seq_cons, attempt_capture]
  refine attempt_few1 (gap ++ ("(".toList ++ (path ++ javascriptPlace digits column)))
    (javascriptCall_eq ..) bracketed.nonempty (isInLine_of_not_mem bracketed.inLine) ?_ ?_
  · intro less more stop function_eq less_ne more_ne stop_eq
    refine attempt_gap_eq_none more_ne (fun mem => bracketed.noBracket ?_) ?_ is_gap stop_eq
    · rw [function_eq]
      exact List.mem_append_right less mem
    · rw [function_eq, List.getLast?_append_of_ne_nil less more_ne] at ends
      exact ends
  rw [attempt_seq_cons]
  refine attempt_many1_whole ("(".toList ++ (path ++ javascriptPlace digits column)) rfl
    gap_nonempty is_gap.blank (by simp; decide) ?_
  rw [attempt_seq_cons, attempt_literal _ (path ++ javascriptPlace digits column) rfl,
    attempt_seq_cons, attempt_capture]
  -- the path goes up to the last two numbers
  refine attempt_few1 (javascriptPlace digits column) rfl bracketed.path_nonempty
    (isInLine_of_not_mem bracketed.path_inLine) ?_ ?_
  · intro less more stop path_eq less_ne more_ne stop_eq
    refine attempt_eq_none fun taken stop' stop_eq' spelled => absurd ?_ more_ne
    refine eq_nil_of_spells_javascriptTail numeral column_numeral
      (fun mem => bracketed.path_noBracket ?_) spelled (stop_eq.symm.trans stop_eq')
    rw [path_eq]
    exact List.mem_append_right less mem
  rw [attempt_javascriptTail numeral column_numeral rfl]
  rfl

theorem frameOf_javascript {start : List Char} (function_nonempty : function ≠ [])
    (starts : ∀ c ∈ function.head?, Text.isBlank c = false)
    (ends : ∀ c ∈ function.getLast?, Text.isBlank c = false) (numeral : Text.IsNumeral digits)
    (column_numeral : Text.IsNumeral column) :
    frameOf ⟨start, ⟨some ')', [], javascriptCallCaptures function gap path digits column⟩⟩ =
      .ok { locatedFrame path digits (String.ofList function) with
        column := some (Text.numeralValue column : Int) } := by
  refine @frameOf_eq_ok _ path digits _ (some column) ?_ ?_ ?_ numeral ?_ ?_
  · show some (textBetween (path ++ javascriptPlace digits column) _) = some path
    rw [textBetween_append]
  · show some (textBetween (digits ++ (":".toList ++ (column ++ ")".toList))) _) = some digits
    rw [textBetween_append]
  · show some (textBetween (column ++ ")".toList) ")".toList) = some column
    rw [textBetween_append]
  · intro _ mem
    exact Option.some_inj.mp mem ▸ column_numeral
  · show functionName (textBetween (javascriptCall function gap path digits column) _) = _
    obtain ⟨c, rest, rfl⟩ := List.exists_cons_of_ne_nil function_nonempty
    rw [javascriptCall_eq, textBetween_append, functionName_eq List.mem_cons_self (starts c rfl),
      Text.strip_of_ends starts ends]

/-! ## Java frames -/

/-- The text of a Java frame, from its function on. -/
def javaCall (function path digits : List Char) : List Char :=
  function ++ "(".toList ++ path ++ ":".toList ++ digits ++ ")".toList

theorem javaCall_eq (function path digits : List Char) :
    javaCall function path digits =
      function ++ ("(".toList ++ (path ++ (":".toList ++ (digits ++ ")".toList)))) := by
  simp only [javaCall, List.append_assoc]

/-- What is captured of a Java frame. -/
def javaCaptures (function path digits : List Char) : List (FramePart × List Char × List Char) :=
  [(.line, digits ++ ")".toList, ")".toList),
    (.path, path ++ (":".toList ++ (digits ++ ")".toList)), ":".toList ++ (digits ++ ")".toList)),
    (.function, javaCall function path digits,
      "(".toList ++ (path ++ (":".toList ++ (digits ++ ")".toList))))]

/-- A Java frame is found by its layout. -/
theorem find?_java (before_gap : Text.IsGap before) (blanks_nonempty : blanks ≠ [])
    (blanks_gap : Text.IsGap blanks) (bracketed : IsBracketed function path)
    (starts : ∀ c ∈ function.head?, Text.isBlank c = false) (no_colon : ':' ∉ path)
    (numeral : Text.IsNumeral digits) :
    TraceRule.java.layout.find?
        (before ++ ("at".toList ++ (blanks ++ javaCall function path digits))) =
      some ⟨"at".toList ++ (blanks ++ javaCall function path digits),
        ⟨some ')', [], javaCaptures function path digits⟩⟩ := by
  rw [layout_java]
  refine find?_seq_literal_eq_some rfl before _ (before_gap.not_mem_of_kept (by decide)) ?_
  rw [attempt_seq_cons, attempt_literal _ (blanks ++ javaCall function path digits) rfl,
    attempt_seq_cons]
  refine attempt_many1_whole (javaCall function path digits) rfl blanks_nonempty blanks_gap.blank
    ?_ ?_
  · rw [javaCall_eq, List.head?_append_of_ne_nil function bracketed.nonempty]
    exact starts
  -- the function goes up to the bracket, the path up to the colon
  rw [attempt_seq_cons, attempt_capture]
  refine attempt_few1_before ("(".toList ++ (path ++ (":".toList ++ (digits ++ ")".toList))))
    (javaCall_eq ..) bracketed.nonempty (isInLine_of_not_mem bracketed.inLine) bracketed.noBracket
    (fun stop other => attempt_literal_cons_eq_none rfl other) ?_
  rw [attempt_seq_cons, attempt_literal _ (path ++ (":".toList ++ (digits ++ ")".toList))) rfl,
    attempt_seq_cons, attempt_capture]
  refine attempt_few1_before (":".toList ++ (digits ++ ")".toList)) rfl bracketed.path_nonempty
    (isInLine_of_not_mem bracketed.path_inLine) no_colon
    (fun stop other => attempt_literal_cons_eq_none rfl other) ?_
  rw [attempt_seq_cons, attempt_literal _ (digits ++ ")".toList) rfl, attempt_seq_cons,
    attempt_capture]
  refine attempt_many1_whole ")".toList rfl numeral.nonempty numeral.digit (by simp; decide) ?_
  rw [attempt_seq_cons, attempt_literal _ [] rfl, attempt_seq_nil]
  rfl

theorem frameOf_java {start : List Char} (function_nonempty : function ≠ [])
    (starts : ∀ c ∈ function.head?, Text.isBlank c = false) (numeral : Text.IsNumeral digits) :
    frameOf ⟨start, ⟨some ')', [], javaCaptures function path digits⟩⟩ =
      .ok (locatedFrame path digits (String.ofList (Text.strip function))) := by
  refine frameOf_eq ?_ ?_ rfl numeral ?_
  · show some (textBetween (path ++ (":".toList ++ (digits ++ ")".toList))) _) = some path
    rw [textBetween_append]
  · show some (textBetween (digits ++ ")".toList) ")".toList) = some digits
    rw [textBetween_append]
  · show functionName (textBetween (javaCall function path digits) _) = _
    obtain ⟨c, rest, rfl⟩ := List.exists_cons_of_ne_nil function_nonempty
    rw [javaCall_eq, textBetween_append, functionName_eq List.mem_cons_self (starts c rfl)]

/-! ## The frames of the lines -/

/-- A JavaScript frame is recovered, whatever numbers and colons its path holds, unless the line
can be taken for a Ruby frame. -/
theorem frameOfLine?_javascriptCall (before_gap : Text.IsGap before)
    (blanks_nonempty : blanks ≠ []) (blanks_gap : Text.IsGap blanks)
    (bracketed : IsBracketed function path)
    (starts : ∀ c ∈ function.head?, Text.isBlank c = false)
    (ends : ∀ c ∈ function.getLast?, Text.isBlank c = false) (gap_nonempty : gap ≠ [])
    (is_gap : Text.IsGap gap) (numeral : Text.IsNumeral digits)
    (column_numeral : Text.IsNumeral column)
    (no_quote :
      '\'' ∉ before ++ "at".toList ++ blanks ++ javascriptCall function gap path digits column)
    (no_location : ∀ ending ∈ rubyEndings, ¬HasNumberAfter ("." ++ ending ++ ":").toList
      (before ++ "at".toList ++ blanks ++ javascriptCall function gap path digits column)) :
    frameOfLine? TraceRule.all
        (before ++ "at".toList ++ blanks ++ javascriptCall function gap path digits column) =
      .ok (some { locatedFrame path digits (String.ofList function) with
        column := some (Text.numeralValue column : Int) }) := by
  rw [TraceRule.all, frameOfLine?_cons_of_none (find?_eq_none_of_not_mem_quote (.inl rfl) no_quote),
    frameOfLine?_cons_of_none (find?_eq_none_of_not_mem_quote (.inr rfl) no_quote),
    frameOfLine?_cons_of_none (find?_rubyBare_eq_none no_location), List.append_assoc,
    List.append_assoc]
  exact frameOfLine?_cons_of_some
    (find?_javascript before_gap blanks_nonempty blanks_gap bracketed starts ends gap_nonempty
      is_gap numeral column_numeral)
    (frameOf_javascript bracketed.nonempty starts ends numeral column_numeral)

/-- A Java frame is recovered, unless its path ends as that of a Ruby file. -/
theorem frameOfLine?_javaCall (before_gap : Text.IsGap before) (blanks_nonempty : blanks ≠ [])
    (blanks_gap : Text.IsGap blanks) (bracketed : IsBracketed function path)
    (starts : ∀ c ∈ function.head?, Text.isBlank c = false) (numeral : Text.IsNumeral digits)
    (function_noColon : ':' ∉ function) (function_noQuote : '"' ∉ function)
    (path_noColon : ':' ∉ path) (path_noQuote : '"' ∉ path)
    (no_ending : ∀ ending ∈ rubyEndings, ¬("." ++ ending).toList <:+ path) :
    frameOfLine? TraceRule.all (before ++ "at".toList ++ blanks ++ javaCall function path digits) =
      .ok (some (locatedFrame path digits (String.ofList (Text.strip function)))) := by
  have line_eq : before ++ "at".toList ++ blanks ++ javaCall function path digits =
      (before ++ "at".toList ++ blanks ++ function ++ '(' :: path) ++
        ':' :: (digits ++ ")".toList) := by
    simp [javaCall]
  have no_colon : ':' ∉ before ++ "at".toList ++ blanks ++ function ++ '(' :: path := by
    have no_colon_before : ':' ∉ before := before_gap.not_mem_of_kept (by decide)
    have no_colon_blanks : ':' ∉ blanks := blanks_gap.not_mem_of_kept (by decide)
    simp [no_colon_before, no_colon_blanks, function_noColon, path_noColon]
  have no_colon_behind : ':' ∉ digits ++ ")".toList := by
    have no_colon_digits : ':' ∉ digits := numeral.not_mem (by decide)
    simp [no_colon_digits]
  have no_quote : '"' ∉ before ++ "at".toList ++ blanks ++ javaCall function path digits := by
    have no_quote_before : '"' ∉ before := before_gap.not_mem_of_kept (by decide)
    have no_quote_blanks : '"' ∉ blanks := blanks_gap.not_mem_of_kept (by decide)
    have no_quote_digits : '"' ∉ digits := numeral.not_mem (by decide)
    simp [javaCall, no_quote_before, no_quote_blanks, no_quote_digits, function_noQuote,
      path_noQuote]
  -- with one colon and no quotes only the last two layouts are left
  rw [line_eq] at no_quote ⊢
  rw [frameOfLine?_all_of_one_colon no_colon no_colon_behind no_quote
      (not_ending_append_cons (by decide) no_ending), ← line_eq, List.append_assoc,
    List.append_assoc]
  exact frameOfLine?_cons_of_some
    (find?_java before_gap blanks_nonempty blanks_gap bracketed starts path_noColon numeral)
    (frameOf_java bracketed.nonempty starts numeral)

/-- JavaScript and Java frames are recovered and told apart: with blanks in front of the bracket and
a column, whatever numbers and colons the path holds, unless the line can be taken for a Ruby
frame; and without a column. -/
theorem frameOfLine?_at (before_gap : Text.IsGap before) (blanks_nonempty : blanks ≠ [])
    (blanks_gap : Text.IsGap blanks) (bracketed : IsBracketed function path)
    (starts : ∀ c ∈ function.head?, Text.isBlank c = false) (numeral : Text.IsNumeral digits) :
    (∀ gap column, gap ≠ [] → Text.IsGap gap → Text.IsNumeral column →
      (∀ c ∈ function.getLast?, Text.isBlank c = false) →
      '\'' ∉ before ++ "at".toList ++ blanks ++ javascriptCall function gap path digits column →
      (∀ ending ∈ rubyEndings, ¬HasNumberAfter ("." ++ ending ++ ":").toList
        (before ++ "at".toList ++ blanks ++ javascriptCall function gap path digits column)) →
      frameOfLine? TraceRule.all
          (before ++ "at".toList ++ blanks ++ javascriptCall function gap path digits column) =
        .ok (some { locatedFrame path digits (String.ofList function) with
          column := some (Text.numeralValue column : Int) })) ∧
    (':' ∉ function → '"' ∉ function → ':' ∉ path → '"' ∉ path →
      (∀ ending ∈ rubyEndings, ¬("." ++ ending).toList <:+ path) →
      frameOfLine? TraceRule.all
          (before ++ "at".toList ++ blanks ++ javaCall function path digits) =
        .ok (some (locatedFrame path digits (String.ofList (Text.strip function))))) := by
  constructor
  · intro gap column gap_nonempty is_gap column_numeral ends no_quote no_location
    exact frameOfLine?_javascriptCall before_gap blanks_nonempty blanks_gap bracketed starts ends
      gap_nonempty is_gap numeral column_numeral no_quote no_location
  · intro function_noColon function_noQuote path_noColon path_noQuote no_ending
    exact frameOfLine?_javaCall before_gap blanks_nonempty blanks_gap bracketed starts numeral
      function_noColon function_noQuote path_noColon path_noQuote no_ending

theorem frameOfLine?_at_indexAt :
    frameOfLine? TraceRule.all "    at Object.<anonymous> (C:\\app:80:1\\index.js:3:9)".toList =
        .ok (some ⟨"index.js", "Object.<anonymous>", 3, some 9⟩) ∧
      frameOfLine? TraceRule.all "\tat com.example.Main.run (src/Main.java:42)".toList =
        .ok (some ⟨"Main.java", "com.example.Main.run", 42, none⟩) := by
  have bracketed : IsBracketed "Object.<anonymous>".toList "C:\\app:80:1\\index.js".toList :=
    ⟨by decide, by decide, by decide, by decide, by decide, by decide⟩
  have numeral : Text.IsNumeral "3".toList := by decide
  have column_numeral : Text.IsNumeral "9".toList := by decide
  have unlocated : ∀ ending ∈ rubyEndings, ¬("." ++ ending ++ ":").toList <:+:
      "    at Object.<anonymous> (C:\\app:80:1\\index.js:3:9)".toList := by
    intro ending mem infix_line
    have has_r : ∀ ending ∈ rubyEndings, 'r' ∈ ("." ++ ending ++ ":").toList := by decide
    exact absurd (infix_line.subset (has_r ending mem)) (by decide)
  have starts : ∀ c ∈ "Object.<anonymous>".toList.head?, Text.isBlank c = false := by
    rintro _ ⟨⟩
    decide
  have ends : ∀ c ∈ "Object.<anonymous>".toList.getLast?, Text.isBlank c = false := by
    rintro _ ⟨⟩
    decide
  have first := (@frameOfLine?_at "    ".toList [' '] _ _ _ (by decide) (by decide) (by decide)
    bracketed starts numeral).1 [' '] _ (by decide) (by decide) column_numeral ends
    (by decide) fun ending mem => not_hasNumberAfter_of_not_isInfix (unlocated ending mem)
  have java_bracketed : IsBracketed "com.example.Main.run ".toList "src/Main.java".toList :=
    ⟨by decide, by decide, by decide, by decide, by decide, by decide⟩
  have java_numeral : Text.IsNumeral "42".toList := by decide
  have java_starts : ∀ c ∈ "com.example.Main.run ".toList.head?, Text.isBlank c = false := by
    rintro _ ⟨⟩
    decide
  have second := (@frameOfLine?_at ['\t'] [' '] _ _ _ (by decide) (by decide) (by decide)
    java_bracketed java_starts java_numeral).2 (by decide) (by decide) (by decide) (by decide)
    (by decide)
  have first_eq : { locatedFrame "C:\\app:80:1\\index.js".toList "3".toList
      (String.ofList "Object.<anonymous>".toList) with
        column := some (Text.numeralValue "9".toList : Int) } =
      (⟨"index.js", "Object.<anonymous>", 3, some 9⟩ : Frame) := by decide
  have second_eq : locatedFrame "src/Main.java".toList "42".toList
      (String.ofList (Text.strip "com.example.Main.run ".toList)) =
      ⟨"Main.java", "com.example.Main.run", 42, none⟩ := by decide
  rw [first_eq] at first
  rw [second_eq] at second
  exact ⟨first, second⟩

end TraceInquest
