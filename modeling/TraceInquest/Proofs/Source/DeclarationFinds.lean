import TraceInquest.Proofs.Source.Vocabulary

/-! # What the patterns of declarations find

Each pattern of a declaration leaves a trace in the text in which it is found: a keyword, an equals
sign with something particular behind it, a word in front of a parenthesis. A text without such a
trace has no finds of the pattern, and in a text with only one of them it is clear what is captured.

* **`CallAt`** — a word in front of a parenthesis; `exists_callAt` says that four of the patterns
  capture such words.
* **`AssignedTo`**, **`HasFunctionValue`**, `Text.KeywordBefore` — the traces of the other ones. -/

namespace TraceInquest

open Pattern

variable {text front word behind : List Char} {found : Found Captured}

/-! ## The patterns -/

/-- `def name`, `def self.name` -/
def defPattern : Pattern Captured := declarationPatterns[0]

/-- `name = lambda`, `name = proc do` -/
def blockPattern : Pattern Captured := declarationPatterns[1]

/-- `name = ->(arguments)` -/
def lambdaPattern : Pattern Captured := declarationPatterns[2]

/-- `function name(` -/
def functionPattern : Pattern Captured := declarationPatterns[3]

/-- `name: function` -/
def functionValuePattern : Pattern Captured := declarationPatterns[4]

/-- `const name = (arguments) =>` -/
def arrowPattern : Pattern Captured := declarationPatterns[5]

/-- `func name(`, `func (receiver) name(` -/
def funcPattern : Pattern Captured := declarationPatterns[6]

/-- A method with its body. -/
def methodPattern : Pattern Captured := declarationPatterns[7]

/-- A name behind its type. -/
def typedPattern : Pattern Captured := declarationPatterns[8]

/-- The patterns that capture a word in front of a parenthesis. -/
def callPatterns : List (Pattern Captured) :=
  [functionPattern, funcPattern, methodPattern, typedPattern]

theorem mem_declarationPatterns {pattern : Pattern Captured} :
    pattern ∈ declarationPatterns ↔ pattern = defPattern ∨ pattern = blockPattern ∨
      pattern = lambdaPattern ∨ pattern = functionValuePattern ∨ pattern = arrowPattern ∨
      pattern ∈ callPatterns := by
  -- the functions stand in front of the two patterns that call nothing
  have listed : declarationPatterns = [defPattern, blockPattern, lambdaPattern] ++
    functionPattern :: ([functionValuePattern, arrowPattern] ++
      [funcPattern, methodPattern, typedPattern]) := rfl
  have reordered : declarationPatterns.Perm ([defPattern, blockPattern, lambdaPattern] ++
      ([functionValuePattern, arrowPattern] ++ callPatterns)) := by
    rw [listed]
    exact List.perm_middle.symm.append_left _
  rw [reordered.mem_iff]
  simp only [List.cons_append, List.nil_append, List.mem_cons]

theorem mem_declarationPatterns_of_call {pattern : Pattern Captured} (mem : pattern ∈ callPatterns) :
    pattern ∈ declarationPatterns := by
  simp only [mem_declarationPatterns, mem, or_true]

/-! ## Words in front of a parenthesis -/

/-- Whether a word stands in a text in front of blanks and a parenthesis. -/
structure CallAt (text front word behind : List Char) : Prop where
  text : ∃ gap, text = front ++ word ++ gap ++ '(' :: behind ∧ ∀ c ∈ gap, Text.isBlank c = true
  is_word : Text.IsWord word
  outside : Text.EndsOutside front

/-- Whether arguments end in a text and a body follows them. -/
def HasBody (behind : List Char) : Prop :=
  ∃ arguments gap body, behind = arguments ++ ')' :: (gap ++ '\x7b' :: body) ∧ ')' ∉ arguments ∧
    ∀ c ∈ gap, Text.isBlank c = true

/-- A word that is followed by blanks and a parenthesis is in front of it. -/
theorem callAt_of_spelled {later rest : List Char} {after : List (Pattern Captured)}
    (is_word : Text.IsWord word) (outside : Text.EndsOutside front)
    (spelled : (seq (blanks :: "(" :: after)).Spells later) :
    ∃ behind, CallAt (front ++ (word ++ (later ++ rest))) front word behind := by
  obtain ⟨gap, _, blank, ⟨_, more, bracket, -, rfl⟩, rfl⟩ := spelled
  rw [spells_literal.mp bracket]
  refine ⟨more ++ rest, ⟨gap, ?_, blank⟩, is_word, outside⟩
  simp

/-- Blanks around a star hold no parts of words. -/
theorem not_isWordChar_of_star (spelled : (seq [blanks, optional "*", blanks]).Spells text) :
    ∀ c ∈ text, Text.isWordChar c = false := by
  obtain ⟨gap, _, blank, ⟨star, _, star_spelled, ⟨gap', _, blank', rfl, rfl⟩, rfl⟩, rfl⟩ := spelled
  intro c mem
  simp only [List.append_nil, List.mem_append] at mem
  rcases mem with in_gap | in_star | in_gap'
  · exact Text.not_isWordChar_of_isBlank (blank c in_gap)
  · rcases star_spelled with is_star | rfl
    · rw [spells_literal.mp is_star] at in_star
      obtain rfl := List.mem_singleton.mp in_star
      decide
    · cases in_star
  · exact Text.not_isWordChar_of_isBlank (blank' c in_gap')

/-- The word behind the keyword `function`. -/
theorem callAt_of_functionPattern (find : found ∈ functionPattern.findAll text) :
    ∃ front behind, CallAt text front (found.captured .name) behind ∧ front ≠ [] := by
  obtain ⟨skipped, taken, later, rest, rfl, is_word, -, spelled, middle, middle_mem, middle_eq⟩ :=
    @exists_word_of_mem_findAll _ _ [atWordEdge, "function", atWordEdge, blanks, optional "*", blanks]
      [blanks, "("] (by simp [blanks]) find
  obtain ⟨-, behind, start_eq, mem⟩ := exists_of_mem_stops_keyword (by rfl) (by decide) middle_mem
  obtain ⟨_, edge_mem, mem⟩ := mem_stops_seq_cons.mp mem
  obtain ⟨edge, rfl⟩ := mem_stops_atWordEdge.mp edge_mem
  obtain ⟨between, behind_eq, between_spelled⟩ := spells_of_mem_stops mem
  rw [middle_eq, Cursor.behind_rest] at behind_eq
  -- the keyword ends at the edge of a word, so the name does not follow it at once
  have between_ne : between ≠ [] := by
    rintro rfl
    obtain ⟨c, others, word_eq⟩ := List.exists_cons_of_ne_nil is_word.nonempty
    have refused := not_isWordChar_of_atWordEdge edge (by rfl) (by decide) c (by
      rw [behind_eq, word_eq]
      rfl)
    rw [is_word.all c (by rw [word_eq]; exact List.mem_cons_self)] at refused
    cases refused
  have taken_eq : taken = "function".toList ++ between := by
    rw [behind_eq, ← List.append_assoc "function".toList] at start_eq
    exact List.append_cancel_right start_eq
  have outside : Text.EndsOutside (skipped ++ taken) := by
    rw [taken_eq, ← List.append_assoc]
    exact (Text.endsOutside_of_forall (not_isWordChar_of_star between_spelled)).append_left
      between_ne _
  obtain ⟨back, call⟩ := @callAt_of_spelled _ _ _ rest _ is_word outside spelled
  rw [List.append_assoc] at call
  exact ⟨skipped ++ taken, back, call, by simp [taken_eq]⟩

/-- Arguments and the blanks behind them do not end within a word. -/
theorem endsOutside_of_arguments (spelled : (seq [arguments, blanks]).Spells text) :
    text ≠ [] ∧ Text.EndsOutside text := by
  obtain ⟨_, _, bracketed, ⟨gap, _, blank, rfl, rfl⟩, rfl⟩ := spelled
  obtain ⟨inner, rfl, -⟩ := spells_arguments.mp bracketed
  refine ⟨by simp, ?_⟩
  rw [List.append_nil]
  by_cases none_behind : gap = []
  · subst none_behind
    rw [List.append_nil, ← List.cons_append]
    exact Text.EndsOutside.append_left (Text.endsOutside_of_forall (by decide)) (by decide) _
  · exact (Text.endsOutside_of_forall fun c mem =>
      Text.not_isWordChar_of_isBlank (blank c mem)).append_left none_behind _

/-- The word behind the keyword `func` and perhaps a receiver. -/
theorem callAt_of_funcPattern (find : found ∈ funcPattern.findAll text) :
    ∃ front behind, CallAt text front (found.captured .name) behind ∧ front ≠ [] := by
  obtain ⟨skipped, taken, later, rest, rfl, is_word, before, spelled, -⟩ :=
    @exists_word_of_mem_findAll _ _ [atStart, "func", blanks1, optional (seq [arguments, blanks])]
      [blanks, "("] (by simp [blanks]) find
  obtain ⟨_, _, rfl, ⟨keyword, _, keyword_spelled, ⟨gap, _, gap_spelled,
    ⟨receiver, _, receiver_spelled, rfl, rfl⟩, rfl⟩, rfl⟩, rfl⟩ := before
  have outside : Text.EndsOutside (skipped ++ ([] ++ (keyword ++ (gap ++ (receiver ++ []))))) := by
    simp only [List.nil_append, List.append_nil, ← List.append_assoc]
    rcases receiver_spelled with bracketed | rfl
    · obtain ⟨nonempty, outside⟩ := endsOutside_of_arguments bracketed
      exact outside.append_left nonempty _
    · obtain ⟨nonempty, outside⟩ := endsOutside_of_blanks1 gap_spelled
      rw [List.append_nil]
      exact outside.append_left nonempty _
  obtain ⟨behind, call⟩ := @callAt_of_spelled _ _ _ rest _ is_word outside spelled
  rw [List.append_assoc] at call
  exact ⟨_, behind, call, by simp [spells_literal.mp keyword_spelled]⟩

/-- The word behind a type. -/
theorem callAt_of_typedPattern (find : found ∈ typedPattern.findAll text) :
    ∃ front behind, CallAt text front (found.captured .name) behind ∧ front ≠ [] := by
  obtain ⟨skipped, taken, later, rest, rfl, is_word, before, spelled, -⟩ :=
    @exists_word_of_mem_findAll _ _ [atStart, repeated (seq [words modifiers, blanks1]),
      notAhead (seq [words nonTypeWords, atWordEdge]), many1 isTypeChar, blanks1, many (· == '*')]
      [blanks, "(", many (· != ';'), Pattern.atEnd] (by simp [blanks, captureBodies]) find
  obtain ⟨_, _, rfl, ⟨rounds, _, -, ⟨_, _, rfl, ⟨type, _, type_spelled, ⟨gap, _, gap_spelled,
    ⟨stars, _, all_stars, rfl, rfl⟩, rfl⟩, rfl⟩, rfl⟩, rfl⟩, rfl⟩ := before
  obtain ⟨gap_ne, blank⟩ := spells_blanks1.mp gap_spelled
  have refused : ∀ c ∈ gap ++ stars, Text.isWordChar c = false := by
    refine List.forall_mem_append.mpr ⟨fun c mem => Text.not_isWordChar_of_isBlank (blank c mem),
      fun c mem => ?_⟩
    obtain rfl : c = '*' := by simpa using all_stars c mem
    decide
  have outside :
      Text.EndsOutside (skipped ++ ([] ++ (rounds ++ ([] ++ (type ++ (gap ++ (stars ++ []))))))) := by
    rw [List.append_nil, List.nil_append, List.nil_append, ← List.append_assoc rounds,
      ← List.append_assoc skipped]
    exact (Text.endsOutside_of_forall refused).append_left (by simp [gap_ne]) _
  obtain ⟨behind, call⟩ := @callAt_of_spelled _ _ _ rest _ is_word outside spelled
  rw [List.append_assoc] at call
  exact ⟨_, behind, call, by simp [(spells_run.mp type_spelled).1]⟩

/-- The word at the start of a line, perhaps behind modifiers, whose arguments have a body. -/
theorem callAt_of_methodPattern (find : found ∈ methodPattern.findAll text) :
    ∃ front behind, CallAt text front (found.captured .name) behind ∧ HasBody behind := by
  obtain ⟨skipped, taken, later, rest, rfl, is_word, before, spelled, middle, middle_mem, -⟩ :=
    @exists_word_of_mem_findAll _ _
      [atStart, repeated (seq [words ["static", "async", "get", "set"], blanks1])]
      [blanks, arguments, blanks, "\x7b"] (by simp [blanks, arguments]) find
  obtain ⟨_, start_mem, -⟩ := mem_stops_seq_cons.mp middle_mem
  -- the pattern is found at the start of the line, behind modifiers only
  obtain rfl : skipped = [] := List.getLast?_eq_none_iff.mp (mem_stops_atStart.mp start_mem).1
  obtain ⟨_, _, rfl, ⟨_, _, ⟨rounds, all_rounds, rfl⟩, rfl, rfl⟩, rfl⟩ := before
  have outside : Text.EndsOutside ([] ++ (rounds.flatten ++ [])) := by
    rw [List.nil_append, List.append_nil]
    -- the last modifier ends with blanks
    rcases List.eq_nil_or_concat rounds with rfl | ⟨others, last, rfl⟩
    · exact Text.endsOutside_nil
    · obtain ⟨_, _, -, ⟨gap, _, gap_spelled, rfl, rfl⟩, last_eq⟩ := all_rounds last (by simp)
      obtain ⟨nonempty, outside⟩ := endsOutside_of_blanks1 gap_spelled
      rw [List.concat_eq_append, List.flatten_append, List.flatten_singleton, last_eq,
        List.append_nil, ← List.append_assoc]
      exact outside.append_left nonempty _
  obtain ⟨gap, _, blank, ⟨_, _, bracketed, ⟨gap', _, blank', ⟨_, _, brace, rfl, rfl⟩, rfl⟩, rfl⟩,
    rfl⟩ := spelled
  obtain ⟨inner, rfl, absent⟩ := spells_arguments.mp bracketed
  rw [spells_literal.mp brace]
  refine ⟨_, inner ++ ')' :: (gap' ++ '\x7b' :: rest), ⟨⟨gap, ?_, blank⟩, is_word, outside⟩,
    inner, gap', rest, rfl, absent, blank'⟩
  simp

/-- Four of the patterns capture words in front of a parenthesis, which stand behind something or
whose arguments have a body. -/
theorem exists_callAt {pattern : Pattern Captured} (mem : pattern ∈ callPatterns)
    (find : found ∈ pattern.findAll text) :
    ∃ front behind, CallAt text front (found.captured .name) behind ∧
      (front ≠ [] ∨ HasBody behind) := by
  simp only [callPatterns, List.mem_cons, List.not_mem_nil, or_false] at mem
  rcases mem with rfl | rfl | rfl | rfl
  · obtain ⟨front, behind, call, nonempty⟩ := callAt_of_functionPattern find
    exact ⟨front, behind, call, .inl nonempty⟩
  · obtain ⟨front, behind, call, nonempty⟩ := callAt_of_funcPattern find
    exact ⟨front, behind, call, .inl nonempty⟩
  · obtain ⟨front, behind, call, body⟩ := callAt_of_methodPattern find
    exact ⟨front, behind, call, .inr body⟩
  · obtain ⟨front, behind, call, nonempty⟩ := callAt_of_typedPattern find
    exact ⟨front, behind, call, .inl nonempty⟩

/-! ## Equals signs -/

/-- Whether an equals sign stands in a text in front of blanks and one of some characters. -/
def AssignedTo (chars text : List Char) : Prop :=
  ∃ before behind, text = before ++ '=' :: behind ∧
    ∃ c ∈ chars, (Text.stripLeft behind).head? = some c

theorem AssignedTo.mem {chars : List Char} (assigned : AssignedTo chars text) : '=' ∈ text := by
  obtain ⟨before, behind, rfl, -⟩ := assigned
  exact List.mem_append_right before List.mem_cons_self

/-- What is behind the only equals sign of a text begins with one of the characters. -/
theorem AssignedTo.exists_head? {chars : List Char} (assigned : AssignedTo chars text)
    (text_eq : text = front ++ '=' :: behind) (absent : '=' ∉ front) (once : '=' ∉ behind) :
    ∃ c ∈ chars, (Text.stripLeft behind).head? = some c := by
  obtain ⟨before, back, same, starts⟩ := assigned
  rw [text_eq] at same
  rwa [(Text.append_cons_inj_of_once absent once same.symm).2] at starts

/-- What is behind an equals sign begins with one of the characters with which what the pattern
spells there begins. -/
theorem assignedTo_of_mem_findAll {before after : List (Pattern Captured)} {chars : List Char}
    (starts : ∀ later, (seq after).Spells later →
      ∃ c rest, later = c :: rest ∧ c ∈ chars ∧ Text.isBlank c = false)
    (find : found ∈ (seq (before ++ literal "=" :: blanks :: after)).findAll text) :
    AssignedTo chars text := by
  rw [findAll_eq_findAllFrom] at find
  obtain ⟨part, ⟨front, back, rfl⟩, spelled⟩ := exists_infix_of_mem_findAllFrom find
  obtain ⟨taken, _, -, ⟨_, _, sign, ⟨gap, later, blank, later_spelled, rfl⟩, rfl⟩, rfl⟩ :=
    spells_seq_append.mp spelled
  obtain ⟨c, rest, rfl, listed, kept⟩ := starts later later_spelled
  rw [spells_literal.mp sign]
  refine ⟨front ++ taken, gap ++ c :: (rest ++ back), ?_, c, listed,
    congrArg List.head? (Text.stripLeft_append_cons blank kept _)⟩
  simp

/-- A block is introduced by one of two keywords. -/
theorem assignedTo_of_blockPattern (find : found ∈ blockPattern.findAll text) :
    AssignedTo ['l', 'p'] text := by
  refine @assignedTo_of_mem_findAll _ _ [wordName, blanks]
    [words ["lambda", "proc"], blanks, oneOf ["\x7b", seq [atWordEdge, "do", atWordEdge]]] _
    ?_ find
  rintro _ ⟨_, rest, keyword, -, rfl⟩
  obtain ⟨word, listed, rfl⟩ := (spells_words (by decide)).mp keyword
  simp only [List.mem_cons, List.not_mem_nil, or_false] at listed
  rcases listed with rfl | rfl
  · exact ⟨'l', _, rfl, by decide, by decide⟩
  · exact ⟨'p', _, rfl, by decide, by decide⟩

theorem assignedTo_of_lambdaPattern (find : found ∈ lambdaPattern.findAll text) :
    AssignedTo ['-'] text := by
  refine @assignedTo_of_mem_findAll _ _ [wordName, blanks] ["->", blanks, "("] _ ?_ find
  rintro _ ⟨_, rest, arrow, -, rfl⟩
  rw [spells_literal.mp arrow]
  exact ⟨'-', _, rfl, by decide, by decide⟩

/-- The word in front of an equals sign with arguments behind it. -/
theorem exists_of_arrowPattern (find : found ∈ arrowPattern.findAll text) :
    ∃ front gap behind, text = front ++ found.captured .name ++ gap ++ '=' :: behind ∧
      Text.IsWord (found.captured .name) ∧ Text.EndsOutside front ∧
      (∀ c ∈ gap, Text.isBlank c = true) ∧
      ∃ c ∈ ['(', 'a'], (Text.stripLeft behind).head? = some c := by
  obtain ⟨skipped, taken, later, rest, rfl, is_word, before, spelled, -⟩ :=
    @exists_word_of_mem_findAll _ _ [atWordEdge, words ["const", "let", "var"], blanks1]
      [blanks, "=", blanks, optional (seq ["async", blanks]), arguments, blanks, "=>"]
      (by simp [blanks, arguments]) find
  obtain ⟨_, _, rfl, ⟨keyword, _, -, ⟨gap, _, gap_spelled, rfl, rfl⟩, rfl⟩, rfl⟩ := before
  obtain ⟨nonempty, outside⟩ := endsOutside_of_blanks1 gap_spelled
  obtain ⟨gap', _, blank', ⟨_, _, sign, ⟨gap'', later, blank'', later_spelled, rfl⟩, rfl⟩, rfl⟩ :=
    spelled
  rw [spells_literal.mp sign]
  refine ⟨skipped ++ (keyword ++ gap), gap', gap'' ++ (later ++ rest), ?_, is_word, ?_, blank', ?_⟩
  · simp
  · rw [← List.append_assoc]
    exact outside.append_left nonempty _
  · -- behind the sign stands the keyword of an asynchronous function or the arguments
    obtain ⟨_, _, asynchronous | rfl, ⟨_, _, bracketed, -, rfl⟩, rfl⟩ := later_spelled
    · obtain ⟨_, _, keyword_spelled, -, rfl⟩ := asynchronous
      rw [spells_literal.mp keyword_spelled]
      exact ⟨'a', by decide,
        congrArg List.head? (Text.stripLeft_append_cons blank'' (by decide) _)⟩
    · obtain ⟨inner, rfl, -⟩ := spells_arguments.mp bracketed
      exact ⟨'(', by decide,
        congrArg List.head? (Text.stripLeft_append_cons blank'' (by decide) _)⟩

theorem assignedTo_of_arrowPattern (find : found ∈ arrowPattern.findAll text) :
    AssignedTo ['(', 'a'] text := by
  obtain ⟨front, gap, behind, text_eq, -, -, -, starts⟩ := exists_of_arrowPattern find
  exact ⟨_, behind, text_eq, starts⟩

/-! ## Keywords -/

/-- Whether the keyword `function` stands in a text behind a colon, with nothing but words and
blanks between them. -/
def HasFunctionValue (text : List Char) : Prop :=
  ∃ between, ':' :: (between ++ "function".toList) <:+: text ∧
    ∀ c ∈ between, Text.isBlank c = true ∨ Text.isWordChar c = true

namespace HasFunctionValue

theorem mem (stands : HasFunctionValue text) : ':' ∈ text := by
  obtain ⟨between, infix_text, -⟩ := stands
  exact infix_text.subset List.mem_cons_self

theorem infix_text (stands : HasFunctionValue text) : "function".toList <:+: text := by
  obtain ⟨between, infix_text, -⟩ := stands
  refine List.IsInfix.trans ?_ infix_text
  exact ⟨':' :: between, [], by simp⟩

/-- A keyword with its colon stands on one side of a sign. -/
theorem of_append_cons {before behind : List Char} {mark : Char}
    (mark_blank : Text.isBlank mark = false) (mark_word : Text.isWordChar mark = false)
    (differs : mark ≠ ':') (stands : HasFunctionValue (before ++ mark :: behind)) :
    HasFunctionValue before ∨ HasFunctionValue behind := by
  obtain ⟨between, infix_text, plain⟩ := stands
  have absent : mark ∉ ':' :: (between ++ "function".toList) := by
    rw [List.mem_cons, List.mem_append, not_or, not_or]
    refine ⟨differs, fun in_between => ?_, fun in_keyword => ?_⟩
    · have := plain mark in_between
      simp [mark_blank, mark_word] at this
    · have keyword_word : ∀ c ∈ "function".toList, Text.isWordChar c = true := by decide
      rw [keyword_word mark in_keyword] at mark_word
      cases mark_word
  exact (Text.infix_of_infix_append_cons absent infix_text).imp (⟨between, ·, plain⟩)
    (⟨between, ·, plain⟩)

end HasFunctionValue

theorem hasFunctionValue_of_spells {part : List Char} (spelled : functionValuePattern.Spells part) :
    HasFunctionValue part := by
  obtain ⟨name, _, -, ⟨gap, _, -, ⟨_, _, colon, ⟨gap', _, blank', ⟨prefixed, _, prefix_spelled,
    ⟨_, _, keyword, ⟨_, _, rfl, rfl, rfl⟩, rfl⟩, rfl⟩, rfl⟩, rfl⟩, rfl⟩, rfl⟩ := spelled
  rw [spells_literal.mp colon, spells_literal.mp keyword]
  refine ⟨gap' ++ prefixed, ⟨name ++ gap, [], by simp⟩, List.forall_mem_append.mpr
    ⟨fun c mem => .inl (blank' c mem), fun c mem => ?_⟩⟩
  rcases prefix_spelled with ⟨_, _, asynchronous, ⟨gap'', _, gap_spelled, rfl, rfl⟩, rfl⟩ | rfl
  · rw [spells_literal.mp asynchronous, List.append_nil] at mem
    rcases List.mem_append.mp mem with in_keyword | in_gap
    · have keyword_word : ∀ c ∈ "async".toList, Text.isWordChar c = true := by decide
      exact .inr (keyword_word c in_keyword)
    · exact .inl ((spells_blanks1.mp gap_spelled).2 c in_gap)
  · cases mem

/-- The keyword `function` stands behind a name and a colon. -/
theorem hasFunctionValue_of_functionValuePattern (find : found ∈ functionValuePattern.findAll text) :
    HasFunctionValue text := by
  rw [findAll_eq_findAllFrom] at find
  obtain ⟨part, in_text, spelled⟩ := exists_infix_of_mem_findAllFrom find
  obtain ⟨between, in_part, plain⟩ := hasFunctionValue_of_spells spelled
  exact ⟨between, in_part.trans in_text, plain⟩

/-- The keyword `def` stands in front of a name. -/
theorem keywordBefore_of_defPattern (find : found ∈ defPattern.findAll text) :
    Text.KeywordBefore "def" Text.isWordChar text := by
  obtain ⟨skipped, is_behind⟩ := exists_isBehind_of_mem_findAll find
  obtain ⟨outside, rest, start_eq, mem⟩ :=
    exists_of_mem_stops_keyword (by rfl) (by decide) is_behind.mem_stops
  obtain ⟨_, rest_eq, gap, _, gap_spelled, ⟨receiver, _, receiver_spelled, ⟨_, _,
    ⟨name, mark, name_spelled, -, rfl⟩, rfl, rfl⟩, rfl⟩, rfl⟩ := spells_of_mem_stops mem
  obtain ⟨gap_ne, blank⟩ := spells_blanks1.mp gap_spelled
  obtain ⟨name_ne, name_word⟩ := spells_run.mp name_spelled
  -- what follows the blanks begins with the receiver or the name
  obtain ⟨c, others, first, c_word⟩ : ∃ c others,
      receiver ++ (name ++ mark ++ []) = c :: others ∧ Text.isWordChar c = true := by
    rcases receiver_spelled with is_self | rfl
    · rw [spells_literal.mp is_self]
      exact ⟨'s', _, rfl, by decide⟩
    · obtain ⟨c, others, rfl⟩ := List.exists_cons_of_ne_nil name_ne
      exact ⟨c, _, rfl, name_word c List.mem_cons_self⟩
  rw [first, Cursor.behind_rest] at rest_eq
  rw [is_behind.text, start_eq, rest_eq]
  refine ⟨skipped, gap, c, others ++ found.stop.rest, ?_, outside, gap_ne, blank, c_word⟩
  simp

end TraceInquest
