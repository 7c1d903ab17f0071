import TraceInquest.Proofs.Pattern.Attempt
import TraceInquest.Proofs.Text.Parts
import TraceInquest.Trace.Parse

/-! # Where a layout is not found

A layout is found only in lines that hold its fixed texts and its numbers. The layouts are tried in
turn, so the frame of a line is known once the layouts in front of the right one are ruled out.

* **`layout_rubyFrom`**, …, **`layout_generic`** — the parts of the layouts.
* **`HasNumberAfter mark text`** — whether a number stands behind a mark somewhere in a text.
* **`find?_eq_none_of_not_hasNumberAfter`** — all layouts but that of Python frames need a number
  behind a colon.
* **`find?_rubyBare_eq_none`**, **`find?_javascript_eq_none`**, … — what the single layouts need.
* **`frameOfLine?_cons_of_some`**, **`frameOfLine?_cons_of_none`** — the layouts are tried in
  turn. -/

namespace TraceInquest

open Pattern

/-! ## The parts of the layouts -/

/-- What comes behind the path in the layouts with a function. -/
def rubyTail : List (Pattern FramePart) :=
  [":", capture .line (many1 Text.isDigit), ":in", many1 Text.isBlank, among "`'",
    capture .function (few1 TraceRule.isInLine), "'"]

theorem layout_rubyIn :
    TraceRule.rubyIn.layout = seq (capture .path (few1 TraceRule.isInLine) :: rubyTail) := rfl

theorem layout_rubyFrom :
    TraceRule.rubyFrom.layout =
      seq ("from" :: many1 Text.isBlank :: capture .path (few1 TraceRule.isInLine) :: rubyTail) :=
  rfl

theorem layout_rubyBare :
    TraceRule.rubyBare.layout =
      seq [capture .path (seq [many1 TraceRule.isInLine, ".", words ["rb", "rake", "erb"]]), ":",
        capture .line (many1 Text.isDigit)] := rfl

/-- What comes behind the function in the layout of JavaScript frames. -/
def javascriptTail : List (Pattern FramePart) :=
  [":", capture .line (many1 Text.isDigit), ":", capture .column (many1 Text.isDigit), ")"]

theorem layout_javascript :
    TraceRule.javascript.layout =
      seq ("at" :: many1 Text.isBlank :: capture .function (few1 TraceRule.isInLine) ::
        many1 Text.isBlank :: "(" :: capture .path (few1 TraceRule.isInLine) :: javascriptTail) :=
  rfl

theorem layout_python :
    TraceRule.python.layout =
      seq ["File", many1 Text.isBlank, "\"", capture .path (few1 TraceRule.isInLine), "\",",
        many1 Text.isBlank, "line", many1 Text.isBlank, capture .line (many1 Text.isDigit), ",",
        many1 Text.isBlank, "in", many1 Text.isBlank,
        capture .function (many1 TraceRule.isInLine)] := rfl

theorem layout_java :
    TraceRule.java.layout =
      seq ["at", many1 Text.isBlank, capture .function (few1 TraceRule.isInLine), "(",
        capture .path (few1 TraceRule.isInLine), ":", capture .line (many1 Text.isDigit), ")"] :=
  rfl

theorem layout_generic :
    TraceRule.generic.layout =
      seq [capture .function (many1 Text.isWordChar), many1 Text.isBlank,
        capture .path (few1 TraceRule.isInLine), ":", capture .line (many1 Text.isDigit)] := rfl

theorem isInLine_of_not_mem {text : List Char} (unbroken : '\n' ∉ text) :
    ∀ c ∈ text, TraceRule.isInLine c = true := by
  intro c mem
  rw [TraceRule.isInLine, bne_iff_ne]
  rintro rfl
  exact unbroken mem

/-! ## Fixed texts -/

variable {rule : TraceRule} {parts : List (Pattern FramePart)} {line : List Char}

/-- A layout is not found in a line without one of its fixed texts. -/
theorem find?_eq_none_of_not_infix {text : String} (layout_eq : rule.layout = seq parts)
    (fixed : [literal text] <:+: parts) (absent : ¬text.toList <:+: line) :
    rule.layout.find? line = none := by
  rw [layout_eq]
  refine find?_seq_eq_none fixed fun part infix_line spelled => absent ?_
  obtain ⟨_, rfl, rfl⟩ := spells_seq_literal.mp spelled
  rw [List.append_nil] at infix_line
  exact infix_line

/-- The layouts of callers and of frames with a function end with a quote. -/
theorem find?_eq_none_of_not_mem_quote (quoted : rule = .rubyFrom ∨ rule = .rubyIn)
    (absent : '\'' ∉ line) : rule.layout.find? line = none := by
  have absent_text : ¬"'".toList <:+: line :=
    fun infix_line => absent (infix_line.subset List.mem_cons_self)
  rcases quoted with rfl | rfl
  · exact find?_eq_none_of_not_infix layout_rubyFrom ⟨[_, _, _, _, _, _, _, _, _], [], rfl⟩ absent_text
  · exact find?_eq_none_of_not_infix layout_rubyIn ⟨[_, _, _, _, _, _, _], [], rfl⟩ absent_text

/-- The layout of Python frames has its path between double quotes. -/
theorem find?_python_eq_none (absent : '"' ∉ line) : TraceRule.python.layout.find? line = none := by
  have absent_text : ¬"\"".toList <:+: line :=
    fun infix_line => absent (infix_line.subset List.mem_cons_self)
  exact find?_eq_none_of_not_infix layout_python ⟨[_, _], _, rfl⟩ absent_text

/-! ## Numbers -/

/-- A number and what comes behind it. -/
theorem spells_seq_number {label : FramePart} {text : List Char} :
    (seq (capture label (many1 Text.isDigit) :: parts)).Spells text ↔
      ∃ digits rest, digits ≠ [] ∧ (∀ c ∈ digits, Text.isDigit c = true) ∧
        (seq parts).Spells rest ∧ text = digits ++ rest := by
  rw [spells_seq_cons]
  constructor
  · rintro ⟨digits, rest, run, rest_spelled, rfl⟩
    obtain ⟨nonempty, all⟩ := spells_run.mp run
    exact ⟨digits, rest, nonempty, all, rest_spelled, rfl⟩
  · rintro ⟨digits, rest, nonempty, all, rest_spelled, rfl⟩
    exact ⟨digits, rest, spells_run.mpr ⟨nonempty, all⟩, rest_spelled, rfl⟩

/-- Whether a digit stands behind a mark somewhere in a text. -/
def HasNumberAfter (mark text : List Char) : Prop :=
  ∃ digit, Text.isDigit digit = true ∧ mark ++ [digit] <:+: text

theorem hasNumberAfter_of_isInfix {mark digits text : List Char} (nonempty : digits ≠ [])
    (all : ∀ c ∈ digits, Text.isDigit c = true) (infix_text : mark ++ digits <:+: text) :
    HasNumberAfter mark text := by
  obtain ⟨digit, others, rfl⟩ := List.exists_cons_of_ne_nil nonempty
  refine ⟨digit, all digit List.mem_cons_self, List.IsInfix.trans ?_ infix_text⟩
  exact ⟨[], others, by simp⟩

/-- Without the mark no number stands behind it. -/
theorem not_hasNumberAfter_of_not_isInfix {mark text : List Char} (absent : ¬mark <:+: text) :
    ¬HasNumberAfter mark text := by
  rintro ⟨digit, -, infix_text⟩
  exact absent (List.IsInfix.trans (List.prefix_append _ _).isInfix infix_text)

/-- A layout with a number behind a mark is not found in a line without one. -/
theorem find?_eq_none_of_block {mark : String} {label : FramePart}
    (layout_eq : rule.layout = seq parts)
    (block : [literal mark, capture label (many1 Text.isDigit)] <:+: parts)
    (absent : ¬HasNumberAfter mark.toList line) : rule.layout.find? line = none := by
  rw [layout_eq]
  refine find?_seq_eq_none block fun part infix_line spelled => absent ?_
  obtain ⟨_, number_spelled, rfl⟩ := spells_seq_literal.mp spelled
  obtain ⟨digits, _, nonempty, all, rfl, rfl⟩ := spells_seq_number.mp number_spelled
  rw [List.append_nil] at infix_line
  exact hasNumberAfter_of_isInfix nonempty all infix_line

/-- In all layouts but that of Python frames a number stands behind a colon. -/
theorem find?_eq_none_of_not_hasNumberAfter (other : rule ≠ .python)
    (absent : ¬HasNumberAfter ":".toList line) : rule.layout.find? line = none := by
  cases rule with
  | rubyFrom => exact find?_eq_none_of_block layout_rubyFrom ⟨[_, _, _], _, rfl⟩ absent
  | rubyIn => exact find?_eq_none_of_block layout_rubyIn ⟨[_], _, rfl⟩ absent
  | rubyBare => exact find?_eq_none_of_block layout_rubyBare ⟨[_], _, rfl⟩ absent
  | javascript =>
    exact find?_eq_none_of_block layout_javascript ⟨[_, _, _, _, _, _], _, rfl⟩ absent
  | python => exact absurd rfl other
  | java => exact find?_eq_none_of_block layout_java ⟨[_, _, _, _, _], _, rfl⟩ absent
  | generic => exact find?_eq_none_of_block layout_generic ⟨[_, _, _], _, rfl⟩ absent

/-! ## Lines with one colon -/

/-- A layout with colons in front of a number and behind it is not found in a line without two
colons. -/
theorem find?_eq_none_of_count (behind : String) {label : FramePart}
    (layout_eq : rule.layout = seq parts)
    (block : [literal ":", capture label (many1 Text.isDigit), literal behind] <:+: parts)
    (colon : ':' ∈ behind.toList) (few : line.count ':' < 2) : rule.layout.find? line = none := by
  rw [layout_eq]
  refine find?_seq_eq_none block fun part infix_line spelled => ?_
  obtain ⟨_, number_spelled, rfl⟩ := spells_seq_literal.mp spelled
  obtain ⟨digits, _, -, -, behind_spelled, rfl⟩ := spells_seq_number.mp number_spelled
  obtain ⟨_, rfl, rfl⟩ := spells_seq_literal.mp behind_spelled
  have bound := infix_line.sublist.count_le ':'
  have first : ":".toList.count ':' = 1 := by decide
  have second : 0 < behind.toList.count ':' := List.count_pos_iff.mpr colon
  rw [List.count_append, List.count_append, List.count_append, first] at bound
  omega

/-- Only lines with two colons are found by the layout of callers. -/
theorem find?_rubyFrom_eq_none_of_count (few : line.count ':' < 2) :
    TraceRule.rubyFrom.layout.find? line = none :=
  find?_eq_none_of_count ":in" layout_rubyFrom ⟨[_, _, _], _, rfl⟩ (by decide) few

/-- Only lines with two colons are found by the layout of frames with a function. -/
theorem find?_rubyIn_eq_none (few : line.count ':' < 2) :
    TraceRule.rubyIn.layout.find? line = none :=
  find?_eq_none_of_count ":in" layout_rubyIn ⟨[_], _, rfl⟩ (by decide) few

/-- Only lines with two colons are found by the layout of JavaScript frames. -/
theorem find?_javascript_eq_none (few : line.count ':' < 2) :
    TraceRule.javascript.layout.find? line = none :=
  find?_eq_none_of_count ":" layout_javascript ⟨[_, _, _, _, _, _], _, rfl⟩ (by decide) few

/-- The layout of Java frames has a closing bracket behind the number. -/
theorem find?_java_eq_none {front behind : List Char} (absent : ':' ∉ front)
    (absent_behind : ':' ∉ behind) (no_bracket : ')' ∉ behind) :
    TraceRule.java.layout.find? (front ++ ':' :: behind) = none := by
  rw [layout_java]
  refine @find?_seq_eq_none _ _ [literal ":", capture FramePart.line (many1 Text.isDigit), literal ")"]
    ⟨[_, _, _, _, _], [], rfl⟩ _ fun part infix_line spelled => no_bracket ?_
  obtain ⟨_, number_spelled, rfl⟩ := spells_seq_literal.mp spelled
  obtain ⟨digits, _, -, -, behind_spelled, rfl⟩ := spells_seq_number.mp number_spelled
  obtain ⟨_, rfl, rfl⟩ := spells_seq_literal.mp behind_spelled
  -- the only colon of the line is the one in front of the number
  obtain ⟨start, rest, line_eq⟩ := infix_line
  have cut : start ++ ':' :: (digits ++ (")".toList ++ []) ++ rest) = front ++ ':' :: behind := by
    rw [← line_eq]
    simp
  obtain ⟨-, behind_eq⟩ := Text.append_cons_inj_of_once absent absent_behind cut
  rw [← behind_eq]
  simp

/-! ## Ruby locations -/

/-- The endings of the names of Ruby files. -/
def rubyEndings : List String := ["rb", "rake", "erb"]

/-- Only lines with a number behind an ending and a colon are found by the layout of bare
locations. -/
theorem find?_rubyBare_eq_none
    (absent : ∀ ending ∈ rubyEndings, ¬HasNumberAfter ("." ++ ending ++ ":").toList line) :
    TraceRule.rubyBare.layout.find? line = none := by
  refine find?_eq_none fun part infix_line spelled => ?_
  rw [layout_rubyBare] at spelled
  obtain ⟨_, _, ⟨stem, _, -, name_spelled, rfl⟩, place_spelled, rfl⟩ := spells_seq_cons.mp spelled
  obtain ⟨_, ⟨_, _, word_spelled, rfl, rfl⟩, rfl⟩ := spells_seq_literal.mp name_spelled
  obtain ⟨ending, mem, rfl⟩ := (spells_words (by decide)).mp word_spelled
  obtain ⟨_, number_spelled, rfl⟩ := spells_seq_literal.mp place_spelled
  obtain ⟨digits, _, nonempty, all, rfl, rfl⟩ := spells_seq_number.mp number_spelled
  have named : ("." ++ ending ++ ":").toList ++ digits <:+: line := by
    refine List.IsInfix.trans ?_ infix_line
    exact ⟨stem, [], by simp⟩
  exact absent ending mem (hasNumberAfter_of_isInfix nonempty all named)

/-- In a line with one colon nothing stands in front of a colon but what comes first. -/
theorem not_hasNumberAfter_of_not_suffix {front behind : List Char} {text : String}
    (absent : ':' ∉ front) (absent_behind : ':' ∉ behind) (no_text : ¬text.toList <:+ front) :
    ¬HasNumberAfter (text ++ ":").toList (front ++ ':' :: behind) := by
  rintro ⟨digit, -, start, rest, line_eq⟩
  have cut : (start ++ text.toList) ++ ':' :: ([digit] ++ rest) = front ++ ':' :: behind := by
    rw [← line_eq]
    simp
  obtain ⟨front_eq, -⟩ := Text.append_cons_inj_of_once absent absent_behind cut
  exact no_text ⟨start, front_eq⟩

/-- Behind a character that no ending of a Ruby file holds, a text ends as what stands there. -/
theorem not_ending_append_cons {front behind : List Char} {c : Char}
    (no_mem : ∀ ending ∈ rubyEndings, c ∉ ("." ++ ending).toList)
    (no_ending : ∀ ending ∈ rubyEndings, ¬("." ++ ending).toList <:+ behind) :
    ∀ ending ∈ rubyEndings, ¬("." ++ ending).toList <:+ front ++ c :: behind := by
  intro ending mem suffix_text
  exact no_ending ending mem (Text.suffix_of_suffix_append_cons (no_mem ending mem) suffix_text)

/-! ## Trying the layouts in turn -/

/-- A line in which the first of some layouts is found has the frame of that find. -/
theorem frameOfLine?_cons_of_some {rule : TraceRule} {rules : List TraceRule} {line : List Char}
    {found : Found FramePart} {frame : Frame} (find : rule.layout.find? line = some found)
    (read : frameOf found = .ok frame) :
    frameOfLine? (rule :: rules) line = .ok (some frame) := by
  rw [frameOfLine?, List.findSome?_cons, find]
  simp only [read]
  rfl

theorem frameOfLine?_cons_of_none {rule : TraceRule} {rules : List TraceRule} {line : List Char}
    (none_found : rule.layout.find? line = none) :
    frameOfLine? (rule :: rules) line = frameOfLine? rules line := by
  rw [frameOfLine?, frameOfLine?, List.findSome?_cons, none_found]

/-- A line with one colon and without double quotes, in which no ending of a Ruby file stands in
front of the colon, can only be a Java frame or a generic one. -/
theorem frameOfLine?_all_of_one_colon {front behind : List Char} (absent : ':' ∉ front)
    (absent_behind : ':' ∉ behind) (no_quote : '"' ∉ front ++ ':' :: behind)
    (no_ending : ∀ ending ∈ rubyEndings, ¬("." ++ ending).toList <:+ front) :
    frameOfLine? TraceRule.all (front ++ ':' :: behind) =
      frameOfLine? [.java, .generic] (front ++ ':' :: behind) := by
  have few : (front ++ ':' :: behind).count ':' < 2 := by
    rw [List.count_append, List.count_cons_self, List.count_eq_zero.mpr absent,
      List.count_eq_zero.mpr absent_behind]
    decide
  have no_location : ∀ ending ∈ rubyEndings,
      ¬HasNumberAfter ("." ++ ending ++ ":").toList (front ++ ':' :: behind) :=
    fun ending mem => not_hasNumberAfter_of_not_suffix absent absent_behind (no_ending ending mem)
  rw [TraceRule.all, frameOfLine?_cons_of_none (find?_rubyFrom_eq_none_of_count few),
    frameOfLine?_cons_of_none (find?_rubyIn_eq_none few),
    frameOfLine?_cons_of_none (find?_rubyBare_eq_none no_location),
    frameOfLine?_cons_of_none (find?_javascript_eq_none few),
    frameOfLine?_cons_of_none (find?_python_eq_none no_quote)]

end TraceInquest
