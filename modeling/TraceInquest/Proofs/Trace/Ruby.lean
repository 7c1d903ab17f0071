import Mathlib.Data.List.Basic
import TraceInquest.Proofs.Trace.Frame
import TraceInquest.Proofs.Trace.Layout

/-! # Ruby frames are recovered

A Ruby frame is read back from the line that was written for it, whatever its path, its line
number and the name of its function are.

* **`rubyCall path digits quote function`** — the text of a frame with a function.
* **`find?_rubyFrom`**, **`find?_rubyIn`**, **`find?_rubyBare`** — the finds of the three layouts.
* **`frameOfLine?_ruby`** — the frames that are read from the lines. -/

namespace TraceInquest

open Pattern

/-! ## Lines with a function -/

/-- The text behind the line number of a frame with a function. -/
def rubyFunction (quote : Char) (function : List Char) : List Char :=
  ":in".toList ++ ([' '] ++ ([quote] ++ (function ++ "'".toList)))

/-- The text behind the path of a frame with a function. -/
def rubyPlace (digits : List Char) (quote : Char) (function : List Char) : List Char :=
  ":".toList ++ (digits ++ rubyFunction quote function)

/-- The text of a frame with a function. -/
def rubyCall (path digits : List Char) (quote : Char) (function : List Char) : List Char :=
  path ++ ":".toList ++ digits ++ ":in ".toList ++ [quote] ++ function ++ "'".toList

theorem rubyCall_eq (path digits : List Char) (quote : Char) (function : List Char) :
    rubyCall path digits quote function = path ++ rubyPlace digits quote function := by
  rw [rubyCall, rubyPlace, rubyFunction, show ":in ".toList = ":in".toList ++ [' '] from rfl]
  simp only [List.append_assoc]

/-- A name of a function that can stand between quotes. -/
structure IsQuotable (function : List Char) : Prop where
  nonempty : function ≠ []
  noQuote : '\'' ∉ function
  inLine : '\n' ∉ function

variable {path digits function : List Char} {quote : Char}

/-- What is captured behind the path, the last capture first. -/
def rubyCaptures (digits : List Char) (quote : Char) (function : List Char) :
    List (FramePart × List Char × List Char) :=
  [(.function, function ++ "'".toList, "'".toList),
    (.line, digits ++ rubyFunction quote function, rubyFunction quote function)]

theorem attempt_rubyTail {here : Cursor FramePart} (numeral : Text.IsNumeral digits)
    (quotable : IsQuotable function) (is_quote : quote = '`' ∨ quote = '\'')
    (text : here.rest = rubyPlace digits quote function) :
    (seq rubyTail).attempt here some =
      some ⟨some '\'', [], rubyCaptures digits quote function ++ here.captured⟩ := by
  have quote_kept : Text.isBlank quote = false := by
    rcases is_quote with rfl | rfl <;> decide
  have quote_among : "`'".toList.contains quote = true := by
    rcases is_quote with rfl | rfl <;> decide
  -- the colon and the number behind it
  rw [rubyTail, attempt_seq_cons, attempt_literal _ _ text, attempt_seq_cons, attempt_capture]
  refine attempt_many1_whole (rubyFunction quote function) rfl numeral.nonempty numeral.digit
    (by simp [rubyFunction]; decide) ?_
  -- the word, the blank and the quote
  rw [attempt_seq_cons, attempt_literal _ ([' '] ++ ([quote] ++ (function ++ "'".toList))) rfl,
    attempt_seq_cons]
  refine attempt_many1_whole ([quote] ++ (function ++ "'".toList)) rfl (List.cons_ne_nil _ _)
    (List.forall_mem_singleton.mpr (by decide)) (by simpa using quote_kept) ?_
  rw [attempt_seq_cons, among, attempt_one rfl quote_among, attempt_seq_cons, attempt_capture]
  -- the function goes up to the next quote, which is the last character
  refine attempt_few1_before "'".toList rfl quotable.nonempty
    (isInLine_of_not_mem quotable.inLine) quotable.noQuote
    (fun stop other => attempt_literal_cons_eq_none rfl other) ?_
  rw [attempt_seq_cons, attempt_literal _ [] rfl, attempt_seq_nil]
  rfl

/-- A path that can stand in front of a colon. -/
structure IsLocatable (path : List Char) : Prop where
  nonempty : path ≠ []
  noColon : ':' ∉ path
  inLine : '\n' ∉ path

/-- What is captured of a frame. -/
def rubyCallCaptures (path digits : List Char) (quote : Char) (function : List Char) :
    List (FramePart × List Char × List Char) :=
  rubyCaptures digits quote function ++
    [(.path, rubyCall path digits quote function, rubyPlace digits quote function)]

theorem attempt_rubyPath {here : Cursor FramePart} (locatable : IsLocatable path)
    (numeral : Text.IsNumeral digits) (quotable : IsQuotable function)
    (is_quote : quote = '`' ∨ quote = '\'') (nothing : here.captured = [])
    (text : here.rest = rubyCall path digits quote function) :
    (seq (capture .path (few1 TraceRule.isInLine) :: rubyTail)).attempt here some =
      some ⟨some '\'', [], rubyCallCaptures path digits quote function⟩ := by
  rw [attempt_seq_cons, attempt_capture]
  refine attempt_few1_before (rubyPlace digits quote function) (text.trans (rubyCall_eq ..))
    locatable.nonempty (isInLine_of_not_mem locatable.inLine) locatable.noColon
    (fun stop other => attempt_literal_cons_eq_none rfl other) ?_
  rw [attempt_rubyTail numeral quotable is_quote rfl, Cursor.note, text, Cursor.behind_captured,
    nothing]
  rfl

/-- The frame of a find with a path, a line and a function. -/
theorem frameOf_ruby {start : List Char} (numeral : Text.IsNumeral digits) :
    frameOf ⟨start, ⟨some '\'', [], rubyCallCaptures path digits quote function⟩⟩ =
      .ok (locatedFrame path digits (functionName function)) := by
  refine frameOf_eq ?_ ?_ rfl numeral ?_
  · show some (textBetween (rubyCall path digits quote function) (rubyPlace digits quote function)) =
      some path
    rw [rubyCall_eq, textBetween_append]
  · show some (textBetween (digits ++ rubyFunction quote function) (rubyFunction quote function)) =
      some digits
    rw [textBetween_append]
  · show functionName (textBetween (function ++ "'".toList) "'".toList) = functionName function
    rw [textBetween_append]

/-- A frame behind `from` is found by the layout of callers. -/
theorem find?_rubyFrom {before blanks : List Char}
    (before_blank : ∀ c ∈ before, Text.isBlank c = true) (blanks_nonempty : blanks ≠ [])
    (blanks_blank : ∀ c ∈ blanks, Text.isBlank c = true) (locatable : IsLocatable path)
    (starts : ∀ c ∈ path.head?, Text.isBlank c = false) (numeral : Text.IsNumeral digits)
    (quotable : IsQuotable function) (is_quote : quote = '`' ∨ quote = '\'') :
    TraceRule.rubyFrom.layout.find?
        (before ++ ("from".toList ++ (blanks ++ rubyCall path digits quote function))) =
      some ⟨"from".toList ++ (blanks ++ rubyCall path digits quote function),
        ⟨some '\'', [], rubyCallCaptures path digits quote function⟩⟩ := by
  have no_f : 'f' ∉ before := fun mem => absurd (before_blank _ mem) (by decide)
  rw [layout_rubyFrom]
  refine find?_seq_literal_eq_some rfl before _ no_f ?_
  rw [attempt_seq_cons, attempt_literal _ (blanks ++ rubyCall path digits quote function) rfl,
    attempt_seq_cons]
  refine attempt_many1_whole (rubyCall path digits quote function) rfl blanks_nonempty blanks_blank ?_
    (attempt_rubyPath locatable numeral quotable is_quote rfl rfl)
  rw [rubyCall_eq, List.head?_append_of_ne_nil path locatable.nonempty]
  exact starts

/-- A frame is found by the layout of frames with a function. -/
theorem find?_rubyIn (locatable : IsLocatable path) (numeral : Text.IsNumeral digits)
    (quotable : IsQuotable function) (is_quote : quote = '`' ∨ quote = '\'') :
    TraceRule.rubyIn.layout.find? (rubyCall path digits quote function) =
      some ⟨rubyCall path digits quote function,
        ⟨some '\'', [], rubyCallCaptures path digits quote function⟩⟩ := by
  rw [layout_rubyIn]
  refine find?_eq_some [] _ (fun less more here skipped_eq more_ne => ?_)
    (attempt_rubyPath locatable numeral quotable is_quote rfl rfl)
  exact absurd (List.append_eq_nil_iff.mp skipped_eq.symm).2 more_ne

/-! ## Lines that are no callers -/

/-- Whether a text holds the word `from` with a blank behind it. -/
def NamesCaller (text : List Char) : Prop :=
  ∃ c, Text.isBlank c = true ∧ "from".toList ++ [c] <:+: text

/-- Only lines that name a caller are found by the layout of callers. -/
theorem find?_rubyFrom_eq_none {line : List Char} (unnamed : ¬NamesCaller line) :
    TraceRule.rubyFrom.layout.find? line = none := by
  refine find?_eq_none fun part infix_line spelled => unnamed ?_
  rw [layout_rubyFrom, spells_seq_cons] at spelled
  obtain ⟨word, behind, word_spelled, spelled, rfl⟩ := spelled
  obtain ⟨blanks, behind, blanks_spelled, -, rfl⟩ := spells_seq_cons.mp spelled
  obtain ⟨nonempty, all⟩ := spells_run.mp blanks_spelled
  obtain ⟨c, blanks, rfl⟩ := List.exists_cons_of_ne_nil nonempty
  rw [spells_literal.mp word_spelled] at infix_line
  refine ⟨c, all c List.mem_cons_self, List.IsInfix.trans ?_ infix_line⟩
  exact ⟨[], blanks ++ behind, by simp⟩

theorem not_namesCaller_rubyCall (path_unnamed : ¬NamesCaller path)
    (function_unnamed : ¬NamesCaller function) (numeral : Text.IsNumeral digits)
    (is_quote : quote = '`' ∨ quote = '\'') : ¬NamesCaller (rubyCall path digits quote function) := by
  rintro ⟨c, blank, infix_call⟩
  have absent {d : Char} (not_in : d ∉ "from".toList) (kept : Text.isBlank d = false) :
      d ∉ "from".toList ++ [c] := by
    rw [List.mem_append, List.mem_singleton, not_or]
    refine ⟨not_in, ?_⟩
    rintro rfl
    rw [blank] at kept
    exact absurd kept.symm Bool.false_ne_true
  have absent_from {text : List Char} (no_f : 'f' ∉ text) : ¬"from".toList ++ [c] <:+: text :=
    fun infix_text => no_f (infix_text.subset List.mem_cons_self)
  have no_colon : ':' ∉ "from".toList ++ [c] := absent (by decide) (by decide)
  have no_quote : quote ∉ "from".toList ++ [c] := by
    rcases is_quote with rfl | rfl <;> exact absent (by decide) (by decide)
  -- the parts of the line between its colons and quotes are looked through from left to right
  rw [rubyCall_eq] at infix_call
  rcases Text.infix_of_infix_append_cons no_colon infix_call with in_path | infix_rest
  · exact path_unnamed ⟨c, blank, in_path⟩
  rcases Text.infix_of_infix_append_cons no_colon infix_rest with in_digits | infix_rest
  · exact absent_from (numeral.not_mem (by decide)) in_digits
  rcases @Text.infix_of_infix_append_cons _ "in ".toList _ quote no_quote infix_rest with
    in_word | infix_rest
  · exact absent_from (by decide) in_word
  rcases Text.infix_of_infix_append_cons (absent (by decide) (by decide)) infix_rest with
    in_function | in_nothing
  · exact function_unnamed ⟨c, blank, in_function⟩
  · exact absent_from List.not_mem_nil in_nothing

/-! ## Lines without a function -/

theorem eq_of_prefix_ending {ending other : String} (mem : ending ∈ rubyEndings)
    (other_mem : other ∈ rubyEndings) {rest : List Char}
    (front : other.toList <+: ending.toList ++ (":".toList ++ rest)) : other = ending := by
  simp only [rubyEndings, List.mem_cons, List.not_mem_nil, or_false] at mem other_mem
  rcases mem with rfl | rfl | rfl <;> rcases other_mem with rfl | rfl | rfl <;>
    first | rfl | simp at front

/-- The text of a location without a function. -/
def rubyLocation (stem : List Char) (ending : String) (digits : List Char) : List Char :=
  stem ++ (".".toList ++ (ending.toList ++ (":".toList ++ digits)))

/-- No ending of a Ruby file stands in front of a colon further on in a location. -/
theorem not_further_ending {ending : String} (mem : ending ∈ rubyEndings)
    (numeral : Text.IsNumeral digits) {more : List Char} (nonempty : more ≠ []) (word : String)
    (rest : List Char) :
    ".".toList ++ (ending.toList ++ (":".toList ++ digits)) ≠
      more ++ (".".toList ++ (word.toList ++ ':' :: rest)) := by
  intro same
  have no_dot : ∀ word ∈ rubyEndings, '.' ∉ word.toList := by decide
  have no_colon : ∀ word ∈ rubyEndings, ':' ∉ ".".toList ++ word.toList := by decide
  have no_colon_digits : ':' ∉ digits := numeral.not_mem (by decide)
  have whole : (".".toList ++ ending.toList) ++ ':' :: digits =
      (more ++ (".".toList ++ word.toList)) ++ ':' :: rest := by
    rw [List.append_assoc, List.append_assoc, List.append_assoc]
    exact same
  -- the location has one colon only
  obtain ⟨fronts, -⟩ :=
    Text.append_cons_inj_of_once (no_colon ending mem) no_colon_digits whole.symm
  obtain ⟨c, more, rfl⟩ := List.exists_cons_of_ne_nil nonempty
  have ending_eq : ending.toList = more ++ (".".toList ++ word.toList) := (List.cons.inj fronts).2.symm
  refine no_dot ending mem ?_
  rw [ending_eq]
  exact List.mem_append_right more List.mem_cons_self

/-- A location without a function is found by the layout of bare locations. -/
theorem find?_rubyBare {stem : List Char} {ending : String} (nonempty : stem ≠ [])
    (in_line : '\n' ∉ stem) (mem : ending ∈ rubyEndings) (numeral : Text.IsNumeral digits) :
    TraceRule.rubyBare.layout.find? (rubyLocation stem ending digits) =
      some ⟨rubyLocation stem ending digits, ⟨digits.getLast?.or (some ':'), [],
        [(.line, digits, []),
          (.path, rubyLocation stem ending digits, ":".toList ++ digits)]⟩⟩ := by
  rw [layout_rubyBare]
  refine find?_eq_some [] _ (fun less more here skipped_eq more_ne => ?_) ?_
  · exact absurd (List.append_eq_nil_iff.mp skipped_eq.symm).2 more_ne
  rw [attempt_seq_cons, attempt_capture, attempt_seq_cons]
  refine attempt_many1 (".".toList ++ (ending.toList ++ (":".toList ++ digits))) rfl nonempty
    (isInLine_of_not_mem in_line) ?_ ?_
  -- behind a longer stem no ending is followed by a colon
  · intro more stop behind_eq more_ne _
    refine attempt_eq_none fun taken stop' stop_eq spelled => ?_
    rw [spells_seq_cons] at spelled
    obtain ⟨dot, behind, dot_spelled, spelled, rfl⟩ := spelled
    rw [spells_seq_cons] at spelled
    obtain ⟨word, behind, word_spelled, nothing, rfl⟩ := spelled
    rw [spells_words (by decide)] at word_spelled
    obtain ⟨word, -, rfl⟩ := word_spelled
    refine attempt_literal_cons_eq_none (c := ':') rfl fun colon => ?_
    obtain ⟨rest, rest_eq⟩ : ∃ rest, stop'.rest = ':' :: rest := List.head?_eq_some_iff.mp colon
    refine not_further_ending mem numeral more_ne word rest ?_
    rw [behind_eq, stop_eq, spells_literal.mp dot_spelled, spells_seq_nil.mp nothing,
      List.append_nil, List.append_assoc, rest_eq]
  · rw [attempt_seq_cons, attempt_literal _ (ending.toList ++ (":".toList ++ digits)) rfl,
      attempt_seq_cons]
    refine attempt_words (":".toList ++ digits) mem rfl
      (fun other other_mem front => eq_of_prefix_ending mem other_mem front) ?_
    rw [attempt_seq_nil, attempt_seq_cons, attempt_literal _ digits rfl, attempt_seq_cons,
      attempt_capture]
    refine attempt_many1_whole [] (List.append_nil digits).symm numeral.nonempty numeral.digit
      (by simp) ?_
    rw [attempt_seq_nil]
    rfl

theorem frameOf_rubyBare {stem : List Char} {ending : String} {start : List Char}
    {previous : Option Char} (numeral : Text.IsNumeral digits) :
    frameOf ⟨start, ⟨previous, [], [(.line, digits, []),
      (.path, rubyLocation stem ending digits, ":".toList ++ digits)]⟩⟩ =
      .ok (locatedFrame (stem ++ ".".toList ++ ending.toList) digits unknownFunction) := by
  refine frameOf_eq ?_ ?_ rfl numeral rfl
  · have path_eq : rubyLocation stem ending digits =
        (stem ++ ".".toList ++ ending.toList) ++ (":".toList ++ digits) := by
      rw [rubyLocation, List.append_assoc, List.append_assoc]
    show some (textBetween (rubyLocation stem ending digits) (":".toList ++ digits)) = _
    rw [path_eq, textBetween_append]
  · show some (textBetween digits []) = some digits
    rw [textBetween, List.length_nil, Nat.sub_zero, List.take_length]

/-! ## The frames of the lines -/

/-- A frame behind `from` is also a frame at a longer path. -/
theorem isLocatable_append_from {before blanks : List Char}
    (before_blank : ∀ c ∈ before, Text.isBlank c = true ∧ c ≠ '\n')
    (blanks_blank : ∀ c ∈ blanks, Text.isBlank c = true ∧ c ≠ '\n') (locatable : IsLocatable path) :
    IsLocatable (before ++ ("from".toList ++ (blanks ++ path))) := by
  have no_colon {text : List Char} (blank : ∀ c ∈ text, Text.isBlank c = true ∧ c ≠ '\n') :
      ':' ∉ text := fun mem => absurd (blank ':' mem).1 (by decide)
  have no_newline {text : List Char} (blank : ∀ c ∈ text, Text.isBlank c = true ∧ c ≠ '\n') :
      '\n' ∉ text := fun mem => (blank '\n' mem).2 rfl
  refine ⟨by simp, ?_, ?_⟩
  · simp only [List.mem_append, not_or]
    exact ⟨no_colon before_blank, by decide, no_colon blanks_blank, locatable.noColon⟩
  · simp only [List.mem_append, not_or]
    exact ⟨no_newline before_blank, by decide, no_newline blanks_blank, locatable.inLine⟩

theorem locatedFrame_append_from {before blanks : List Char}
    (before_blank : ∀ c ∈ before, Text.isBlank c = true) {c : Char} (mem : c ∈ path)
    (separates : isSeparator c = true) (starts : ∀ c ∈ path.head?, Text.isBlank c = false)
    (name : String) :
    locatedFrame (before ++ ("from".toList ++ (blanks ++ path))) digits name =
      locatedFrame path digits name := by
  have word_starts : ∀ d ∈ ("from".toList ++ blanks).head?, Text.isBlank d = false := by
    intro d first
    obtain rfl := Option.some_inj.mp first
    decide
  rw [locatedFrame, locatedFrame, Text.strip_append before_blank, ← List.append_assoc,
    baseName_strip_append mem separates starts word_starts]

/-- Ruby frames are recovered: behind `from`, and if the path has directories then also without the
layout of callers; without `from`, if nothing in the line looks like it; and without a function. -/
theorem frameOfLine?_ruby (locatable : IsLocatable path) (numeral : Text.IsNumeral digits)
    (quotable : IsQuotable function) (is_quote : quote = '`' ∨ quote = '\'') :
    (∀ before blanks, (∀ c ∈ before, Text.isBlank c = true ∧ c ≠ '\n') → blanks ≠ [] →
      (∀ c ∈ blanks, Text.isBlank c = true ∧ c ≠ '\n') →
      (∀ c ∈ path.head?, Text.isBlank c = false) →
      frameOfLine? TraceRule.all
          (before ++ "from".toList ++ blanks ++ rubyCall path digits quote function) =
        .ok (some (locatedFrame path digits (functionName function))) ∧
      ((∃ c ∈ path, isSeparator c = true) →
        frameOfLine? TraceRule.all.tail
            (before ++ "from".toList ++ blanks ++ rubyCall path digits quote function) =
          .ok (some (locatedFrame path digits (functionName function))))) ∧
    (¬NamesCaller path → ¬NamesCaller function →
      frameOfLine? TraceRule.all (rubyCall path digits quote function) =
        .ok (some (locatedFrame path digits (functionName function)))) ∧
    (∀ stem, ∀ ending ∈ rubyEndings, stem ≠ [] → path = stem ++ ".".toList ++ ending.toList →
      frameOfLine? TraceRule.all (path ++ ":".toList ++ digits) =
        .ok (some (locatedFrame path digits unknownFunction))) := by
  refine ⟨?_, ?_, ?_⟩
  · intro before blanks before_blank blanks_nonempty blanks_blank starts
    constructor
    · rw [List.append_assoc, List.append_assoc]
      exact frameOfLine?_cons_of_some
        (find?_rubyFrom (fun c mem => (before_blank c mem).1) blanks_nonempty
          (fun c mem => (blanks_blank c mem).1) locatable starts numeral quotable is_quote)
        (frameOf_ruby numeral)
    · -- without the first layout, everything in front of the colon is taken for the path
      rintro ⟨c, mem, separates⟩
      have call_eq : before ++ "from".toList ++ blanks ++ rubyCall path digits quote function =
          rubyCall (before ++ ("from".toList ++ (blanks ++ path))) digits quote function := by
        simp only [rubyCall, List.append_assoc]
      rw [call_eq, ← locatedFrame_append_from (fun c mem => (before_blank c mem).1) mem separates
        starts]
      exact frameOfLine?_cons_of_some
        (find?_rubyIn (isLocatable_append_from before_blank blanks_blank locatable) numeral quotable
          is_quote)
        (frameOf_ruby numeral)
  · intro path_unnamed function_unnamed
    refine (frameOfLine?_cons_of_none (find?_rubyFrom_eq_none
      (not_namesCaller_rubyCall path_unnamed function_unnamed numeral is_quote))).trans ?_
    exact frameOfLine?_cons_of_some (find?_rubyIn locatable numeral quotable is_quote)
      (frameOf_ruby numeral)
  · rintro stem ending mem nonempty rfl
    have few : (stem ++ ".".toList ++ ending.toList ++ ":".toList ++ digits).count ':' < 2 := by
      have colon : ":".toList.count ':' = 1 := by decide
      rw [List.count_append, List.count_append, List.count_eq_zero.mpr locatable.noColon, colon,
        List.count_eq_zero.mpr (numeral.not_mem (by decide))]
      decide
    have location_eq : stem ++ ".".toList ++ ending.toList ++ ":".toList ++ digits =
        rubyLocation stem ending digits := by
      simp only [rubyLocation, List.append_assoc]
    rw [TraceRule.all, frameOfLine?_cons_of_none (find?_rubyFrom_eq_none_of_count few),
      frameOfLine?_cons_of_none (find?_rubyIn_eq_none few), location_eq]
    have in_line : '\n' ∉ stem := fun mem =>
      locatable.inLine (List.mem_append_left _ (List.mem_append_left _ mem))
    exact frameOfLine?_cons_of_some (find?_rubyBare nonempty in_line mem numeral)
      (frameOf_rubyBare numeral)

theorem frameOfLine?_ruby_runAt :
    frameOfLine? TraceRule.all "\tfrom lib/a.rb:12:in `run'".toList =
        .ok (some { filename := "a.rb", function := "run", line := 12 }) ∧
      frameOfLine? TraceRule.all.tail "\tfrom lib/a.rb:12:in `run'".toList =
        .ok (some { filename := "a.rb", function := "run", line := 12 }) ∧
      frameOfLine? TraceRule.all "lib/a.rb:12:in `run'".toList =
        .ok (some { filename := "a.rb", function := "run", line := 12 }) ∧
      frameOfLine? TraceRule.all "lib/a.rb:12".toList =
        .ok (some { filename := "a.rb", line := 12 }) := by
  have unnamed {text : List Char} (no_f : 'f' ∉ text) : ¬NamesCaller text := by
    rintro ⟨c, -, infix_text⟩
    exact no_f (infix_text.subset List.mem_cons_self)
  have frame_eq : locatedFrame "lib/a.rb".toList "12".toList (functionName "run".toList) =
      { filename := "a.rb", function := "run", line := 12 } := by decide
  have bare_eq : locatedFrame "lib/a.rb".toList "12".toList unknownFunction =
      { filename := "a.rb", line := 12 } := by decide
  obtain ⟨caller, call, location⟩ :=
    @frameOfLine?_ruby "lib/a.rb".toList "12".toList "run".toList '`'
      ⟨by decide, by decide, by decide⟩ ⟨by decide, List.all_eq_true.mp (by decide), by decide⟩
      ⟨by decide, by decide, by decide⟩ (.inl rfl)
  have starts : ∀ c ∈ "lib/a.rb".toList.head?, Text.isBlank c = false := by
    intro c first
    obtain rfl := Option.some_inj.mp first
    decide
  obtain ⟨first, others⟩ := caller ['\t'] [' '] (List.forall_mem_singleton.mpr (by decide))
    (by decide) (List.forall_mem_singleton.mpr (by decide)) starts
  rw [frame_eq] at first others call
  rw [bare_eq] at location
  exact ⟨first, others ⟨'/', by decide, by decide⟩, call (unnamed (by decide)) (unnamed (by decide)),
    location "lib/a".toList "rb" (by decide) (by decide) (by decide)⟩

end TraceInquest
