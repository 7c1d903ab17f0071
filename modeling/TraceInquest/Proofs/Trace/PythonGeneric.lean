import TraceInquest.Proofs.Trace.Frame
import TraceInquest.Proofs.Trace.Layout

/-! # Python and generic frames are recovered

A Python frame has its path between quotes and its function at the end of the line, where it may
hold anything. The generic layout comes last: a word, blanks, a path, a colon and a number.

* **`pythonCall`**, **`genericCall`** — the texts of the two kinds of frames.
* **`find?_python`**, **`find?_generic`** — the finds of the two layouts.
* **`frameOfLine?_python_generic`** — the frames that are read from the lines. -/

namespace TraceInquest

open Pattern

variable {before blanks path digits function : List Char}

/-! ## Python frames -/

/-- The text behind the number of a Python frame. -/
def pythonFunction (function : List Char) : List Char :=
  ",".toList ++ (" ".toList ++ ("in".toList ++ (" ".toList ++ function)))

/-- The text behind the path of a Python frame. -/
def pythonPlace (digits function : List Char) : List Char :=
  "\",".toList ++ (" ".toList ++ ("line".toList ++ (" ".toList ++ (digits ++ pythonFunction function))))

/-- The text of a Python frame, from its path on. -/
def pythonCall (path digits function : List Char) : List Char :=
  "\"".toList ++ path ++ "\", line ".toList ++ digits ++ ", in ".toList ++ function

theorem pythonCall_eq (path digits function : List Char) :
    pythonCall path digits function = "\"".toList ++ (path ++ pythonPlace digits function) := by
  simp [pythonCall, pythonPlace, pythonFunction]

/-- What is captured of a Python frame, the last capture first. -/
def pythonCaptures (path digits function : List Char) : List (FramePart × List Char × List Char) :=
  [(.function, Text.stripLeft function, []),
    (.line, digits ++ pythonFunction function, pythonFunction function),
    (.path, path ++ pythonPlace digits function, pythonPlace digits function)]

/-- A single space is taken as a whole in front of another character. -/
theorem attempt_space {here : Cursor FramePart} {next : Cursor FramePart → Option (Cursor FramePart)}
    {stop : Cursor FramePart} (rest : List Char) (text : here.rest = " ".toList ++ rest)
    (kept : ∀ c ∈ rest.head?, Text.isBlank c = false)
    (ends : next (here.behind " ".toList rest) = some stop) :
    (many1 Text.isBlank).attempt here next = some stop :=
  attempt_many1_whole rest text (by decide) (List.forall_mem_singleton.mpr (by decide)) kept ends

/-- A Python frame is found by its layout. -/
theorem find?_python (before_gap : Text.IsGap before) (blanks_nonempty : blanks ≠ [])
    (blanks_gap : Text.IsGap blanks) (path_nonempty : path ≠ []) (path_inLine : '\n' ∉ path)
    (path_noQuote : '"' ∉ path) (numeral : Text.IsNumeral digits) (function_inLine : '\n' ∉ function)
    {c : Char} (mem : c ∈ function) (kept : Text.isBlank c = false) :
    ∃ previous, TraceRule.python.layout.find?
        (before ++ ("File".toList ++ (blanks ++ pythonCall path digits function))) =
      some ⟨"File".toList ++ (blanks ++ pythonCall path digits function),
        ⟨previous, [], pythonCaptures path digits function⟩⟩ := by
  have digit_kept : ∀ c ∈ (digits ++ pythonFunction function).head?, Text.isBlank c = false := by
    rw [List.head?_append_of_ne_nil _ numeral.nonempty]
    exact fun c first => Text.not_isBlank_of_isDigit (numeral.digit c (List.mem_of_head? first))
  have function_eq : " ".toList ++ function =
      (" ".toList ++ function.takeWhile Text.isBlank) ++ Text.stripLeft function := by
    rw [Text.stripLeft, List.append_assoc, List.takeWhile_append_dropWhile]
  have run_blank : ∀ c ∈ " ".toList ++ function.takeWhile Text.isBlank, Text.isBlank c = true :=
    List.forall_mem_cons.mpr ⟨by decide, fun c mem => List.mem_takeWhile_imp mem⟩
  have left_inLine : '\n' ∉ Text.stripLeft function := fun mem =>
    function_inLine ((List.dropWhile_suffix _).subset mem)
  apply Exists.intro
  rw [layout_python]
  refine find?_seq_literal_eq_some rfl before _ (before_gap.not_mem_of_kept (by decide)) ?_
  rw [attempt_seq_cons, attempt_literal _ (blanks ++ pythonCall path digits function) rfl,
    attempt_seq_cons]
  refine attempt_many1_whole (pythonCall path digits function) rfl blanks_nonempty blanks_gap.blank
    (by simp [pythonCall_eq]; decide) ?_
  -- the path goes up to the next quote
  rw [attempt_seq_cons, attempt_literal _ (path ++ pythonPlace digits function) (pythonCall_eq ..),
    attempt_seq_cons, attempt_capture]
  refine attempt_few1_before (pythonPlace digits function) rfl path_nonempty
    (isInLine_of_not_mem path_inLine) path_noQuote
    (fun stop other => attempt_literal_cons_eq_none rfl other) ?_
  rw [attempt_seq_cons, attempt_literal _ _ rfl, attempt_seq_cons]
  refine attempt_space _ rfl (by simp; decide) ?_
  rw [attempt_seq_cons, attempt_literal _ _ rfl, attempt_seq_cons]
  refine attempt_space _ rfl digit_kept ?_
  rw [attempt_seq_cons, attempt_capture]
  refine attempt_many1_whole (pythonFunction function) rfl numeral.nonempty numeral.digit
    (by simp [pythonFunction]; decide) ?_
  rw [attempt_seq_cons, attempt_literal _ _ rfl, attempt_seq_cons]
  refine attempt_space _ rfl (by simp; decide) ?_
  rw [attempt_seq_cons, attempt_literal _ (" ".toList ++ function) rfl, attempt_seq_cons]
  -- the blanks at the start of the function belong to those in front of it
  refine attempt_many1_whole (Text.stripLeft function) function_eq (by simp) run_blank
    (Text.head?_stripLeft function) ?_
  rw [attempt_seq_cons, attempt_capture]
  refine attempt_many1_whole [] (List.append_nil _).symm
    (List.ne_nil_of_mem (Text.mem_stripLeft mem kept)) (isInLine_of_not_mem left_inLine) (by simp) ?_
  rw [attempt_seq_nil]
  rfl

/-- The frame of a find whose path, line and function have been captured. -/
theorem frameOf_python {start : List Char} {previous : Option Char} {c : Char} (mem : c ∈ function)
    (kept : Text.isBlank c = false) (numeral : Text.IsNumeral digits) :
    frameOf ⟨start, ⟨previous, [], pythonCaptures path digits function⟩⟩ =
      .ok (locatedFrame path digits (String.ofList (Text.strip function))) := by
  refine frameOf_eq ?_ ?_ rfl numeral ?_
  · show some (textBetween (path ++ pythonPlace digits function) _) = some path
    rw [textBetween_append]
  · show some (textBetween (digits ++ pythonFunction function) _) = some digits
    rw [textBetween_append]
  · show functionName (textBetween (Text.stripLeft function) []) = _
    rw [textBetween, List.length_nil, Nat.sub_zero, List.take_length,
      functionName_eq (Text.mem_stripLeft mem kept) kept, Text.strip_stripLeft]

/-! ## Generic frames -/

/-- The text of a generic frame. -/
def genericCall (function blanks path digits : List Char) : List Char :=
  function ++ blanks ++ path ++ ":".toList ++ digits

theorem genericCall_eq (function blanks path digits : List Char) :
    genericCall function blanks path digits =
      function ++ (blanks ++ (path ++ (":".toList ++ digits))) := by
  simp only [genericCall, List.append_assoc]

/-- What is captured of a generic frame. -/
def genericCaptures (function blanks path digits : List Char) :
    List (FramePart × List Char × List Char) :=
  [(.line, digits, []), (.path, path ++ (":".toList ++ digits), ":".toList ++ digits),
    (.function, genericCall function blanks path digits,
      blanks ++ (path ++ (":".toList ++ digits)))]

/-- A generic frame is found by its layout. -/
theorem find?_generic (before_gap : Text.IsGap before) (function_nonempty : function ≠ [])
    (word : ∀ c ∈ function, Text.isWordChar c = true) (blanks_nonempty : blanks ≠ [])
    (blanks_gap : Text.IsGap blanks) (path_nonempty : path ≠ []) (path_inLine : '\n' ∉ path)
    (starts : ∀ c ∈ path.head?, Text.isBlank c = false) (no_colon : ':' ∉ path)
    (numeral : Text.IsNumeral digits) :
    ∃ previous, TraceRule.generic.layout.find?
        (before ++ genericCall function blanks path digits) =
      some ⟨genericCall function blanks path digits,
        ⟨previous, [], genericCaptures function blanks path digits⟩⟩ := by
  apply Exists.intro
  rw [layout_generic]
  refine find?_eq_some before _ (fun less more here before_eq more_ne here_eq => ?_) ?_
  · -- what is skipped is blank, and no word begins with a blank
    rw [attempt_seq_cons, attempt_capture]
    refine attempt_eq_none fun taken stop taken_eq spelled => ?_
    obtain ⟨taken_ne, all⟩ := spells_run.mp spelled
    obtain ⟨c, more, rfl⟩ := List.exists_cons_of_ne_nil more_ne
    obtain ⟨d, taken, rfl⟩ := List.exists_cons_of_ne_nil taken_ne
    rw [here_eq, List.cons_append, List.cons_append, List.cons.injEq] at taken_eq
    have blank : Text.isBlank c = true := before_gap.blank c (by rw [before_eq]; simp)
    have no_word := Text.not_isWordChar_of_isBlank blank
    rw [taken_eq.1, all d List.mem_cons_self] at no_word
    exact absurd no_word.symm Bool.false_ne_true
  rw [attempt_seq_cons, attempt_capture]
  refine attempt_many1_whole (blanks ++ (path ++ (":".toList ++ digits))) (genericCall_eq ..)
    function_nonempty word ?_ ?_
  · rw [List.head?_append_of_ne_nil blanks blanks_nonempty]
    exact fun c first =>
      Text.not_isWordChar_of_isBlank (blanks_gap.blank c (List.mem_of_head? first))
  rw [attempt_seq_cons]
  refine attempt_many1_whole (path ++ (":".toList ++ digits)) rfl blanks_nonempty blanks_gap.blank
    ?_ ?_
  · rw [List.head?_append_of_ne_nil path path_nonempty]
    exact starts
  rw [attempt_seq_cons, attempt_capture]
  refine attempt_few1_before (":".toList ++ digits) rfl path_nonempty
    (isInLine_of_not_mem path_inLine) no_colon
    (fun stop other => attempt_literal_cons_eq_none rfl other) ?_
  rw [attempt_seq_cons, attempt_literal _ digits rfl, attempt_seq_cons, attempt_capture]
  refine attempt_many1_whole [] (List.append_nil digits).symm numeral.nonempty numeral.digit
    (by simp) ?_
  rw [attempt_seq_nil]
  rfl

/-- A word is left as it is without the blanks around it. -/
theorem strip_of_word (word : ∀ c ∈ function, Text.isWordChar c = true) :
    Text.strip function = function := by
  have kept : ∀ c ∈ function, Text.isBlank c = false :=
    fun c mem => Text.not_isBlank_of_isWordChar (word c mem)
  exact Text.strip_of_ends (fun c first => kept c (List.mem_of_head? first))
    fun c last => kept c (List.mem_of_getLast? last)

theorem frameOf_generic {start : List Char} {previous : Option Char} (function_nonempty : function ≠ [])
    (word : ∀ c ∈ function, Text.isWordChar c = true) (numeral : Text.IsNumeral digits) :
    frameOf ⟨start, ⟨previous, [], genericCaptures function blanks path digits⟩⟩ =
      .ok (locatedFrame path digits (String.ofList function)) := by
  refine frameOf_eq ?_ ?_ rfl numeral ?_
  · show some (textBetween (path ++ (":".toList ++ digits)) _) = some path
    rw [textBetween_append]
  · show some (textBetween digits []) = some digits
    rw [textBetween, List.length_nil, Nat.sub_zero, List.take_length]
  · show functionName (textBetween (genericCall function blanks path digits) _) = _
    rw [genericCall_eq, textBetween_append, functionName, strip_of_word word,
      List.isEmpty_eq_false_iff.mpr function_nonempty]
    rfl

/-! ## The frames of the lines -/

/-- A Python frame is recovered, if no number stands behind a colon. -/
theorem frameOfLine?_pythonCall (before_gap : Text.IsGap before) (blanks_nonempty : blanks ≠ [])
    (blanks_gap : Text.IsGap blanks) (path_nonempty : path ≠ []) (path_inLine : '\n' ∉ path)
    (path_noQuote : '"' ∉ path) (numeral : Text.IsNumeral digits)
    (function_inLine : '\n' ∉ function) {c : Char} (mem : c ∈ function)
    (kept : Text.isBlank c = false)
    (no_number : ¬HasNumberAfter ":".toList
      (before ++ "File".toList ++ blanks ++ pythonCall path digits function)) :
    frameOfLine? TraceRule.all
        (before ++ "File".toList ++ blanks ++ pythonCall path digits function) =
      .ok (some (locatedFrame path digits (String.ofList (Text.strip function)))) := by
  have others {rule : TraceRule} (other : rule ≠ .python) :=
    find?_eq_none_of_not_hasNumberAfter other no_number
  rw [TraceRule.all, frameOfLine?_cons_of_none (others (by decide)),
    frameOfLine?_cons_of_none (others (by decide)),
    frameOfLine?_cons_of_none (others (by decide)),
    frameOfLine?_cons_of_none (others (by decide)), List.append_assoc, List.append_assoc]
  obtain ⟨previous, find⟩ := find?_python before_gap blanks_nonempty blanks_gap path_nonempty
    path_inLine path_noQuote numeral function_inLine mem kept
  exact frameOfLine?_cons_of_some find (frameOf_python mem kept numeral)

/-- Behind blanks a text ends as a Ruby file only if what stands there does. -/
theorem not_ending_append_gap {front : List Char} (blanks_nonempty : blanks ≠ [])
    (blanks_gap : Text.IsGap blanks)
    (no_ending : ∀ ending ∈ rubyEndings, ¬("." ++ ending).toList <:+ path) :
    ∀ ending ∈ rubyEndings, ¬("." ++ ending).toList <:+ front ++ blanks ++ path := by
  obtain ⟨others, last, rfl⟩ := (List.eq_nil_or_concat blanks).resolve_left blanks_nonempty
  have blank : Text.isBlank last = true := blanks_gap.blank last (by simp)
  have kept : ∀ ending ∈ rubyEndings,
      ("." ++ ending).toList.all (fun c => !Text.isBlank c) = true := by
    decide
  have no_mem : ∀ ending ∈ rubyEndings, last ∉ ("." ++ ending).toList := by
    intro ending mem last_mem
    have not_blank := List.all_eq_true.mp (kept ending mem) last last_mem
    rw [blank] at not_blank
    exact absurd not_blank Bool.false_ne_true
  have split : front ++ others.concat last ++ path = (front ++ others) ++ last :: path := by
    simp
  rw [split]
  exact not_ending_append_cons no_mem no_ending

/-- A generic frame is recovered, unless its path ends as that of a Ruby file. -/
theorem frameOfLine?_genericCall (before_gap : Text.IsGap before)
    (blanks_nonempty : blanks ≠ []) (blanks_gap : Text.IsGap blanks) (path_nonempty : path ≠ [])
    (path_inLine : '\n' ∉ path) (path_noQuote : '"' ∉ path) (numeral : Text.IsNumeral digits)
    (function_nonempty : function ≠ []) (word : ∀ c ∈ function, Text.isWordChar c = true)
    (starts : ∀ c ∈ path.head?, Text.isBlank c = false) (path_noColon : ':' ∉ path)
    (no_ending : ∀ ending ∈ rubyEndings, ¬("." ++ ending).toList <:+ path) :
    frameOfLine? TraceRule.all (before ++ genericCall function blanks path digits) =
      .ok (some (locatedFrame path digits (String.ofList function))) := by
  have line_eq : before ++ genericCall function blanks path digits =
      (before ++ function ++ blanks ++ path) ++ ':' :: digits := by
    simp [genericCall]
  have not_mem_function {c : Char} (no_word : Text.isWordChar c = false) : c ∉ function := by
    intro mem
    rw [word c mem] at no_word
    exact absurd no_word.symm Bool.false_ne_true
  have no_colon : ':' ∉ before ++ function ++ blanks ++ path := by
    have no_colon_before : ':' ∉ before := before_gap.not_mem_of_kept (by decide)
    have no_colon_function : ':' ∉ function := not_mem_function (by decide)
    have no_colon_blanks : ':' ∉ blanks := blanks_gap.not_mem_of_kept (by decide)
    simp [no_colon_before, no_colon_function, no_colon_blanks, path_noColon]
  have no_quote : '"' ∉ before ++ genericCall function blanks path digits := by
    have no_quote_before : '"' ∉ before := before_gap.not_mem_of_kept (by decide)
    have no_quote_function : '"' ∉ function := not_mem_function (by decide)
    have no_quote_blanks : '"' ∉ blanks := blanks_gap.not_mem_of_kept (by decide)
    have no_quote_digits : '"' ∉ digits := numeral.not_mem (by decide)
    simp [genericCall, no_quote_before, no_quote_function, no_quote_blanks, path_noQuote,
      no_quote_digits]
  have no_colon_digits : ':' ∉ digits := numeral.not_mem (by decide)
  rw [line_eq] at no_quote
  have no_java := find?_java_eq_none no_colon no_colon_digits (numeral.not_mem (by decide))
  -- with one colon and no quotes only the last two layouts are left, and the last one without
  -- parentheses
  rw [line_eq, frameOfLine?_all_of_one_colon no_colon no_colon_digits no_quote
      (not_ending_append_gap blanks_nonempty blanks_gap no_ending),
    frameOfLine?_cons_of_none no_java, ← line_eq]
  obtain ⟨previous, find⟩ := find?_generic before_gap function_nonempty word blanks_nonempty
    blanks_gap path_nonempty path_inLine starts path_noColon numeral
  exact frameOfLine?_cons_of_some find (frameOf_generic function_nonempty word numeral)

/-- Python and generic frames are recovered: with a path between quotes, if no number stands behind
a colon; and with a word in front of the path. -/
theorem frameOfLine?_python_generic (before_gap : Text.IsGap before) (blanks_nonempty : blanks ≠ [])
    (blanks_gap : Text.IsGap blanks) (path_nonempty : path ≠ []) (path_inLine : '\n' ∉ path)
    (path_noQuote : '"' ∉ path) (numeral : Text.IsNumeral digits) :
    (∀ function, '\n' ∉ function → (∃ c ∈ function, Text.isBlank c = false) →
      ¬HasNumberAfter ":".toList
        (before ++ "File".toList ++ blanks ++ pythonCall path digits function) →
      frameOfLine? TraceRule.all
          (before ++ "File".toList ++ blanks ++ pythonCall path digits function) =
        .ok (some (locatedFrame path digits (String.ofList (Text.strip function))))) ∧
    (∀ function, function ≠ [] → (∀ c ∈ function, Text.isWordChar c = true) →
      (∀ c ∈ path.head?, Text.isBlank c = false) → ':' ∉ path →
      (∀ ending ∈ rubyEndings, ¬("." ++ ending).toList <:+ path) →
      frameOfLine? TraceRule.all (before ++ genericCall function blanks path digits) =
        .ok (some (locatedFrame path digits (String.ofList function)))) := by
  constructor
  · rintro function function_inLine ⟨c, mem, kept⟩ no_number
    exact frameOfLine?_pythonCall before_gap blanks_nonempty blanks_gap path_nonempty path_inLine
      path_noQuote numeral function_inLine mem kept no_number
  · intro function function_nonempty word starts path_noColon no_ending
    exact frameOfLine?_genericCall before_gap blanks_nonempty blanks_gap path_nonempty path_inLine
      path_noQuote numeral function_nonempty word starts path_noColon no_ending

theorem frameOfLine?_python_generic_runAt :
    frameOfLine? TraceRule.all "  File \"/srv/app: old/jobs.py\", line 14, in  <module> ".toList =
        .ok (some ⟨"jobs.py", "<module>", 14, none⟩) ∧
      frameOfLine? TraceRule.all "process_job lib/worker (1).go:17".toList =
        .ok (some ⟨"worker (1).go", "process_job", 17, none⟩) := by
  have python_numeral : Text.IsNumeral "14".toList := by decide
  have no_number : ¬HasNumberAfter ":".toList
      "  File \"/srv/app: old/jobs.py\", line 14, in  <module> ".toList := by
    rintro ⟨digit, is_digit, start, rest, line_eq⟩
    rw [List.append_assoc] at line_eq
    obtain ⟨-, behind_eq⟩ := @Text.append_cons_inj_of_once _ _ ':' "  File \"/srv/app".toList start
      " old/jobs.py\", line 14, in  <module> ".toList _ (by decide) (by decide) line_eq
    obtain ⟨rfl, -⟩ := List.cons.inj behind_eq
    exact absurd is_digit (by decide)
  have first := (@frameOfLine?_python_generic "  ".toList [' '] "/srv/app: old/jobs.py".toList _
    (by decide) (by decide) (by decide) (by decide) (by decide) (by decide) python_numeral).1
    " <module> ".toList (by decide) ⟨'<', by decide, by decide⟩ no_number
  have numeral : Text.IsNumeral "17".toList := by decide
  have starts : ∀ c ∈ "lib/worker (1).go".toList.head?, Text.isBlank c = false := by
    rintro _ ⟨⟩
    decide
  have second := (@frameOfLine?_python_generic [] [' '] "lib/worker (1).go".toList _
    (by decide) (by decide) (by decide) (by decide) (by decide) (by decide) numeral).2
    "process_job".toList (by decide) (List.all_eq_true.mp (by decide)) starts (by decide)
    (by decide)
  have first_eq : locatedFrame "/srv/app: old/jobs.py".toList "14".toList
      (String.ofList (Text.strip " <module> ".toList)) = ⟨"jobs.py", "<module>", 14, none⟩ := by
    decide
  have second_eq : locatedFrame "lib/worker (1).go".toList "17".toList
      (String.ofList "process_job".toList) = ⟨"worker (1).go", "process_job", 17, none⟩ := by
    decide
  rw [first_eq] at first
  rw [second_eq] at second
  exact ⟨first, second⟩

end TraceInquest
