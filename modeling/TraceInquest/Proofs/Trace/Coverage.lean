import TraceInquest.Proofs.Pattern.Plain
import TraceInquest.Proofs.Trace.Numbers

/-! # Layouts that cover other layouts

The particular layouts come first, but the general ones are found in their lines too. The layouts
of callers, of JavaScript frames and of Java frames therefore decide about what is read from a
line, and never about whether it is a frame.

* **`isPlain_layout`** — layouts have neither anchors nor look-aheads.
* **`isFoundIn_rubyIn_of_rubyFrom`**, **`isFoundIn_java_of_javascript`**, … — which layout is found
  wherever another one is.
* **`frameOfLine?_eq_none_iff_of_covered`** — rules whose finds others share can be left out.
* **`frameOfLine?_all_covered`** — the four layouts that decide whether a line is a frame. -/

namespace TraceInquest

open Pattern

variable {rules kept : List TraceRule} {line : List Char}

/-- No layout has an anchor or a look-ahead. -/
theorem isPlain_layout (rule : TraceRule) : rule.layout.IsPlain := by
  cases rule with
  | rubyFrom => simp [layout_rubyFrom, rubyTail]
  | rubyIn => simp [layout_rubyIn, rubyTail]
  | rubyBare => simp [layout_rubyBare]
  | javascript => simp [layout_javascript, javascriptTail]
  | python => simp [layout_python]
  | java => simp [layout_java]
  | generic => simp [layout_generic]

/-! ## Texts of the general layouts -/

/-- What the layout of any frame spells. -/
theorem spells_generic {word blanks path digits : List Char}
    (word_spelled : word ≠ [] ∧ ∀ c ∈ word, Text.isWordChar c = true)
    (blanks_spelled : (many1 Text.isBlank : Pattern FramePart).Spells blanks)
    (path_spelled : path ≠ [] ∧ ∀ c ∈ path, TraceRule.isInLine c = true)
    (digits_spelled : digits ≠ [] ∧ ∀ c ∈ digits, Text.isDigit c = true) :
    TraceRule.generic.layout.Spells (word ++ (blanks ++ (path ++ (":".toList ++ digits)))) := by
  have number : (seq [capture FramePart.line (many1 Text.isDigit)]).Spells digits :=
    spells_seq_number.mpr ⟨digits, [], digits_spelled.1, digits_spelled.2, rfl, by simp⟩
  refine ⟨word, _, spells_run.mpr word_spelled, ?_, rfl⟩
  refine ⟨blanks, _, blanks_spelled, ?_, rfl⟩
  exact ⟨path, _, spells_run.mpr path_spelled, spells_seq_literal.mpr ⟨digits, number, rfl⟩, rfl⟩

/-- What the layout of Java frames spells. -/
theorem spells_java {blanks function path digits : List Char}
    (blanks_spelled : (many1 Text.isBlank : Pattern FramePart).Spells blanks)
    (function_spelled : function ≠ [] ∧ ∀ c ∈ function, TraceRule.isInLine c = true)
    (path_spelled : path ≠ [] ∧ ∀ c ∈ path, TraceRule.isInLine c = true)
    (digits_spelled : digits ≠ [] ∧ ∀ c ∈ digits, Text.isDigit c = true) :
    TraceRule.java.layout.Spells ("at".toList ++ (blanks ++ (function ++ ("(".toList ++
      (path ++ (":".toList ++ (digits ++ ")".toList))))))) := by
  have number : (seq [capture FramePart.line (many1 Text.isDigit), literal ")"]).Spells
      (digits ++ ")".toList) :=
    spells_seq_number.mpr ⟨digits, _, digits_spelled.1, digits_spelled.2,
      spells_seq_literal.mpr ⟨[], rfl, rfl⟩, by simp⟩
  refine spells_seq_literal.mpr ⟨_, ⟨blanks, _, blanks_spelled, ?_, rfl⟩, rfl⟩
  refine ⟨function, _, spells_run.mpr function_spelled, ?_, rfl⟩
  refine spells_seq_literal.mpr ⟨_, ⟨path, _, spells_run.mpr path_spelled, ?_, rfl⟩, rfl⟩
  exact spells_seq_literal.mpr ⟨_, number, rfl⟩

/-! ## Which layout covers which -/

/-- A caller is a frame with a function behind a word. -/
theorem isFoundIn_rubyIn_of_rubyFrom
    (isFound : TraceRule.rubyFrom.layout.isFoundIn line = true) :
    TraceRule.rubyIn.layout.isFoundIn line = true := by
  refine isFoundIn_of_spells (isPlain_layout _) (fun part _ spelled => ?_) isFound
  rw [layout_rubyFrom] at spelled
  obtain ⟨_, behind_word, rfl⟩ := spells_seq_literal.mp spelled
  obtain ⟨blanks, location, -, location_spelled, rfl⟩ := spells_seq_cons.mp behind_word
  exact ⟨location, ⟨"from".toList ++ blanks, [], by simp⟩, location_spelled⟩

/-- The word in front of a caller is a function of the general layout. -/
theorem isFoundIn_generic_of_rubyFrom
    (isFound : TraceRule.rubyFrom.layout.isFoundIn line = true) :
    TraceRule.generic.layout.isFoundIn line = true := by
  refine isFoundIn_of_spells (isPlain_layout _) (fun part _ spelled => ?_) isFound
  rw [layout_rubyFrom] at spelled
  obtain ⟨_, behind_word, rfl⟩ := spells_seq_literal.mp spelled
  obtain ⟨blanks, _, blanks_spelled, behind_blanks, rfl⟩ := spells_seq_cons.mp behind_word
  obtain ⟨path, _, path_spelled, behind_path, rfl⟩ := spells_seq_cons.mp behind_blanks
  obtain ⟨_, behind_colon, rfl⟩ := spells_seq_literal.mp behind_path
  obtain ⟨digits, behind, nonempty, all, -, rfl⟩ := spells_seq_number.mp behind_colon
  have word : "from".toList ≠ [] ∧ ∀ c ∈ "from".toList, Text.isWordChar c = true :=
    ⟨by decide, List.all_eq_true.mp (by decide)⟩
  exact ⟨_, ⟨[], behind, by simp⟩,
    spells_generic word blanks_spelled (spells_run.mp path_spelled) ⟨nonempty, all⟩⟩

/-- The word in front of a Java frame is a function of the general layout, and the function and the
opening bracket belong to its path. -/
theorem isFoundIn_generic_of_java (isFound : TraceRule.java.layout.isFoundIn line = true) :
    TraceRule.generic.layout.isFoundIn line = true := by
  refine isFoundIn_of_spells (isPlain_layout _) (fun part _ spelled => ?_) isFound
  rw [layout_java] at spelled
  obtain ⟨_, behind_word, rfl⟩ := spells_seq_literal.mp spelled
  obtain ⟨blanks, _, blanks_spelled, behind_blanks, rfl⟩ := spells_seq_cons.mp behind_word
  obtain ⟨function, _, function_spelled, behind_function, rfl⟩ := spells_seq_cons.mp behind_blanks
  obtain ⟨_, behind_bracket, rfl⟩ := spells_seq_literal.mp behind_function
  obtain ⟨path, _, path_spelled, behind_path, rfl⟩ := spells_seq_cons.mp behind_bracket
  obtain ⟨_, behind_colon, rfl⟩ := spells_seq_literal.mp behind_path
  obtain ⟨digits, behind, nonempty, all, -, rfl⟩ := spells_seq_number.mp behind_colon
  obtain ⟨function_nonempty, function_all⟩ := spells_run.mp function_spelled
  obtain ⟨-, path_all⟩ := spells_run.mp path_spelled
  have word : "at".toList ≠ [] ∧ ∀ c ∈ "at".toList, Text.isWordChar c = true :=
    ⟨by decide, List.all_eq_true.mp (by decide)⟩
  have bracket : ∀ c ∈ "(".toList, TraceRule.isInLine c = true := List.all_eq_true.mp (by decide)
  have general_path : function ++ ("(".toList ++ path) ≠ [] ∧
      ∀ c ∈ function ++ ("(".toList ++ path), TraceRule.isInLine c = true :=
    ⟨List.append_ne_nil_of_left_ne_nil function_nonempty _,
      List.forall_mem_append.mpr ⟨function_all, List.forall_mem_append.mpr ⟨bracket, path_all⟩⟩⟩
  exact ⟨_, ⟨[], behind, by simp⟩,
    spells_generic word blanks_spelled general_path ⟨nonempty, all⟩⟩

/-- In one line, the blanks behind the function of a JavaScript frame belong to the function of a
Java frame, and the line number to its path. -/
theorem isFoundIn_java_of_javascript (unbroken : '\n' ∉ line)
    (isFound : TraceRule.javascript.layout.isFoundIn line = true) :
    TraceRule.java.layout.isFoundIn line = true := by
  refine isFoundIn_of_spells (isPlain_layout _) (fun part in_line spelled => ?_) isFound
  have part_inLine : ∀ c ∈ part, TraceRule.isInLine c = true :=
    isInLine_of_not_mem fun mem => unbroken (in_line.subset mem)
  rw [layout_javascript] at spelled
  obtain ⟨_, behind_word, rfl⟩ := spells_seq_literal.mp spelled
  obtain ⟨blanks, _, blanks_spelled, behind_blanks, rfl⟩ := spells_seq_cons.mp behind_word
  obtain ⟨function, _, function_spelled, behind_function, rfl⟩ := spells_seq_cons.mp behind_blanks
  obtain ⟨gap, _, -, behind_gap, rfl⟩ := spells_seq_cons.mp behind_function
  obtain ⟨_, behind_bracket, rfl⟩ := spells_seq_literal.mp behind_gap
  obtain ⟨path, _, path_spelled, behind_path, rfl⟩ := spells_seq_cons.mp behind_bracket
  obtain ⟨_, behind_colon, rfl⟩ := spells_seq_literal.mp behind_path
  obtain ⟨digits, _, -, -, behind_line, rfl⟩ := spells_seq_number.mp behind_colon
  obtain ⟨_, column_spelled, rfl⟩ := spells_seq_literal.mp behind_line
  obtain ⟨column, _, nonempty, all, behind_column, rfl⟩ := spells_seq_number.mp column_spelled
  obtain ⟨_, rfl, rfl⟩ := spells_seq_literal.mp behind_column
  simp only [List.forall_mem_append] at part_inLine
  obtain ⟨-, -, function_all, gap_all, -, path_all, colon_all, digits_all, -⟩ := part_inLine
  have java_function : function ++ gap ≠ [] ∧ ∀ c ∈ function ++ gap, TraceRule.isInLine c = true :=
    ⟨List.append_ne_nil_of_left_ne_nil (spells_run.mp function_spelled).1 _,
      List.forall_mem_append.mpr ⟨function_all, gap_all⟩⟩
  have java_path : path ++ (":".toList ++ digits) ≠ [] ∧
      ∀ c ∈ path ++ (":".toList ++ digits), TraceRule.isInLine c = true :=
    ⟨List.append_ne_nil_of_left_ne_nil (spells_run.mp path_spelled).1 _,
      List.forall_mem_append.mpr ⟨path_all, List.forall_mem_append.mpr ⟨colon_all, digits_all⟩⟩⟩
  refine ⟨_, ?_, spells_java blanks_spelled java_function java_path ⟨nonempty, all⟩⟩
  simp

/-! ## Leaving rules out -/

/-- Rules that are found only where rules that are kept are found can be left out, if only whether a
line is a frame is asked. -/
theorem frameOfLine?_eq_none_iff_of_covered (subset : kept ⊆ rules)
    (covered : ∀ rule ∈ rules, rule.layout.isFoundIn line = true →
      ∃ other ∈ kept, other.layout.isFoundIn line = true) :
    frameOfLine? rules line = .ok none ↔ frameOfLine? kept line = .ok none := by
  rw [frameOfLine?_eq_none_iff, frameOfLine?_eq_none_iff]
  constructor
  · exact fun absent rule mem => absent rule (subset mem)
  · intro absent rule mem
    by_contra found
    obtain ⟨other, other_mem, isFound⟩ := covered rule mem (Option.isSome_iff_ne_none.mpr found)
    rw [isFoundIn, absent other other_mem] at isFound
    exact absurd isFound Bool.false_ne_true

/-- The layout of callers is covered by that of frames with a function and by the general one, that
of JavaScript frames by that of Java frames, and this by the general one. So whether a line is a
frame does not depend on them, as long as its numbers can be read. -/
theorem frameOfLine?_all_covered (unbroken : '\n' ∉ line) :
    (TraceRule.rubyFrom.layout.isFoundIn line = true →
      TraceRule.rubyIn.layout.isFoundIn line = true ∧
        TraceRule.generic.layout.isFoundIn line = true) ∧
    (TraceRule.javascript.layout.isFoundIn line = true →
      TraceRule.java.layout.isFoundIn line = true) ∧
    (TraceRule.java.layout.isFoundIn line = true →
      TraceRule.generic.layout.isFoundIn line = true) ∧
    (HasShortNumerals line →
      ∃ frame? kept?, frameOfLine? TraceRule.all line = .ok frame? ∧
        frameOfLine? [.rubyIn, .rubyBare, .python, .generic] line = .ok kept? ∧
          (frame? = none ↔ kept? = none)) := by
  refine ⟨fun isFound => ⟨isFoundIn_rubyIn_of_rubyFrom isFound,
    isFoundIn_generic_of_rubyFrom isFound⟩, isFoundIn_java_of_javascript unbroken,
    isFoundIn_generic_of_java, fun short => ?_⟩
  obtain ⟨frame?, all_read⟩ := @exists_frameOfLine?_eq_ok TraceRule.all _ short
  obtain ⟨kept?, kept_read⟩ :=
    @exists_frameOfLine?_eq_ok [.rubyIn, .rubyBare, .python, .generic] _ short
  refine ⟨frame?, kept?, all_read, kept_read, ?_⟩
  have covered : ∀ rule ∈ TraceRule.all, rule.layout.isFoundIn line = true →
      ∃ other ∈ [TraceRule.rubyIn, .rubyBare, .python, .generic],
        other.layout.isFoundIn line = true := by
    intro rule _ isFound
    cases rule with
    | rubyFrom => exact ⟨.rubyIn, by decide, isFoundIn_rubyIn_of_rubyFrom isFound⟩
    | javascript =>
      exact ⟨.generic, by decide,
        isFoundIn_generic_of_java (isFoundIn_java_of_javascript unbroken isFound)⟩
    | java => exact ⟨.generic, by decide, isFoundIn_generic_of_java isFound⟩
    | rubyIn | rubyBare | python | generic => exact ⟨_, by decide, isFound⟩
  have agree := frameOfLine?_eq_none_iff_of_covered (by decide) covered
  rw [all_read, kept_read] at agree
  simpa using agree

/-- A JavaScript frame is found by the layout of Java frames and by the general one. Without either
of the particular layouts it is still a frame, though another one. -/
theorem frameOfLine?_all_covered_javascript :
    '\n' ∉ "  at f (a.js:3:7)".toList ∧
      TraceRule.javascript.layout.isFoundIn "  at f (a.js:3:7)".toList = true ∧
      TraceRule.java.layout.isFoundIn "  at f (a.js:3:7)".toList = true ∧
      TraceRule.generic.layout.isFoundIn "  at f (a.js:3:7)".toList = true ∧
      HasShortNumerals "  at f (a.js:3:7)".toList ∧
      frameOfLine? TraceRule.all "  at f (a.js:3:7)".toList =
        .ok (some { filename := "a.js", function := "f", line := 3, column := some 7 }) ∧
      ∃ kept?, frameOfLine? [.rubyIn, .rubyBare, .python, .generic] "  at f (a.js:3:7)".toList =
        .ok kept? ∧ kept? ≠ none := by
  have unbroken : '\n' ∉ "  at f (a.js:3:7)".toList := by decide
  have isFound : TraceRule.javascript.layout.isFoundIn "  at f (a.js:3:7)".toList = true := by
    decide +kernel
  have short : HasShortNumerals "  at f (a.js:3:7)".toList := fun digits infix_line _ =>
    Nat.le_trans infix_line.length_le (by decide)
  obtain ⟨-, java, generic, read⟩ := frameOfLine?_all_covered unbroken
  have frame : frameOfLine? TraceRule.all "  at f (a.js:3:7)".toList =
      .ok (some { filename := "a.js", function := "f", line := 3, column := some 7 }) := by
    decide +kernel
  obtain ⟨frame?, kept?, all_read, kept_read, same⟩ := read short
  obtain rfl := Except.ok.inj (frame.symm.trans all_read)
  refine ⟨unbroken, isFound, java isFound, generic (java isFound), short, frame, kept?, kept_read,
    fun none_kept => ?_⟩
  cases same.mpr none_kept

end TraceInquest
