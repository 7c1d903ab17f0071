import TraceInquest.Proofs.Source.Vocabulary
import TraceInquest.Proofs.Text.Ends
import TraceInquest.Source.Import

/-! # What the patterns of imports find

A pattern of an import leaves a trace in the text in which it is found: quotes around the module, a
keyword in front of a capital, or a keyword with which the text begins.

* **`enclosed_of_quotingPatterns`** — seven patterns capture what stands between quotes.
* **`keywordBefore_of_constantPattern`** — two patterns need a keyword in front of a capital.
* **`prefix_of_anchoredPatterns`** — four patterns need a keyword at the start of the text; what
  they capture follows from **`StartsWithRun`**, **`enclosed_of_headerPattern`** and
  **`exists_ahead_of_modulePattern`**. -/

namespace TraceInquest

open Pattern

variable {text : List Char} {found : Found Captured}

/-! ## The patterns -/

/-- The keywords that stand in front of a module between quotes. -/
def quotingKeywords : List String := ["require", "require_relative", "load", "gem", "import"]

/-- A keyword in front of a module between quotes. -/
def quotedPattern (keyword : String) : Pattern Captured :=
  seq [atWordEdge, literal keyword, blanks1, quotedModule]

/-- `import names from 'module'` -/
def importFromPattern : Pattern Captured := importPatterns[6]

/-- `require('module')` -/
def requireCallPattern : Pattern Captured := importPatterns[8]

/-- The patterns of a module between quotes. -/
def quotingPatterns : List (Pattern Captured) :=
  quotingKeywords.map quotedPattern ++ [importFromPattern, requireCallPattern]

/-- The keywords that stand in front of words joined by double colons. -/
def constantKeywords : List String := ["include", "extend"]

/-- A keyword in front of words joined by double colons. -/
def constantPattern (keyword : String) : Pattern Captured :=
  seq [atWordEdge, literal keyword, blanks1, constantPath]

/-- `from module import` -/
def fromPattern : Pattern Captured := importPatterns[9]

/-- `import module` -/
def modulePattern : Pattern Captured := importPatterns[10]

/-- `use module;` -/
def usePattern : Pattern Captured := importPatterns[11]

/-- `#include <module>` -/
def headerPattern : Pattern Captured := importPatterns[12]

/-- The patterns that are only found at the start of a text, each with its keyword. -/
def anchoredPatterns : List (String × Pattern Captured) :=
  [("from", fromPattern), ("import", modulePattern), ("use", usePattern), ("#", headerPattern)]

theorem mem_importPatterns {pattern : Pattern Captured} :
    pattern ∈ importPatterns ↔ pattern ∈ quotingPatterns ∨
      pattern ∈ constantKeywords.map constantPattern ∨ pattern ∈ anchoredPatterns.map Prod.snd := by
  have listed : importPatterns = [quotedPattern "require", quotedPattern "require_relative",
      quotedPattern "load"] ++ constantKeywords.map constantPattern ++ [quotedPattern "gem"] ++
      [importFromPattern] ++ [quotedPattern "import"] ++ [requireCallPattern] ++
      anchoredPatterns.map Prod.snd := rfl
  have quoting : quotingPatterns = [quotedPattern "require", quotedPattern "require_relative",
      quotedPattern "load"] ++ [quotedPattern "gem"] ++ [quotedPattern "import"] ++
      [importFromPattern] ++ [requireCallPattern] := rfl
  rw [listed, quoting]
  simp only [List.mem_append, or_assoc, or_left_comm]

/-! ## Marks around a module -/

/-- Whether a character is a quote. -/
def isQuote (c : Char) : Bool := "'\"".toList.contains c

/-- A find of a sequence that captures what stands between two marks. -/
theorem enclosed_of_isBehind {opens closes accepts : Char → Bool}
    {before after : List (Pattern Captured)} {skipped : List Char}
    (refused : ∀ c, accepts c = true → closes c = false)
    (silent : (seq after).captureBodies = [])
    (is_behind : found.IsBehind (seq (before ++
      [one opens, capture .name (many1 accepts), one closes] ++ after)) text skipped) :
    Text.Enclosed opens closes (found.captured .name) text := by
  have cut : before ++ [one opens, capture .name (many1 accepts), one closes] ++ after =
      (before ++ [one opens]) ++ capture .name (many1 accepts) :: ([one closes] ++ after) := by
    simp
  rw [cut] at is_behind
  have other : ∀ capture ∈ (seq ([one closes] ++ after)).captureBodies,
      capture.1 ≠ Captured.name := by
    rw [captureBodies_seq] at silent ⊢
    simp [silent, captureBodies]
  obtain ⟨taken, later, rest, text_eq, -, all, before_spelled, after_spelled, -⟩ :=
    exists_run_of_isBehind other is_behind
  obtain ⟨front, _, -, ⟨_, _, ⟨first, opening, rfl⟩, rfl, rfl⟩, rfl⟩ :=
    spells_seq_append.mp before_spelled
  obtain ⟨_, back, ⟨last, closing, rfl⟩, -, rfl⟩ := after_spelled
  refine ⟨skipped ++ front, first, last, back ++ rest, ?_, opening, closing,
    fun c mem => refused c (all c mem)⟩
  rw [text_eq]
  simp

/-- A module between quotes, wherever it stands in a sequence. -/
theorem enclosed_of_quotedModule {before after : List (Pattern Captured)}
    (silent : (seq after).captureBodies = [])
    (find : found ∈ (seq (before ++ quotedModule :: after)).findAll text) :
    Text.Enclosed isQuote isQuote (found.captured .name) text := by
  obtain ⟨skipped, is_behind⟩ := exists_isBehind_of_mem_findAll find
  have accepted : ∀ c, (c != '\'' && c != '"') = true → isQuote c = false := by
    intro c
    simp [isQuote]
  refine @enclosed_of_isBehind _ _ _ _ _ before after skipped accepted silent
    ⟨is_behind.text, ?_⟩
  rw [List.append_assoc, ← attempt_seq_seq]
  exact is_behind.attempt

/-- Seven of the patterns capture what stands between quotes. -/
theorem enclosed_of_quotingPatterns {pattern : Pattern Captured} (listed : pattern ∈ quotingPatterns)
    (find : found ∈ pattern.findAll text) :
    Text.Enclosed isQuote isQuote (found.captured .name) text := by
  simp only [quotingPatterns, List.mem_append, List.mem_map, List.mem_cons, List.not_mem_nil,
    or_false] at listed
  rcases listed with ⟨keyword, -, rfl⟩ | rfl | rfl
  · exact @enclosed_of_quotedModule _ _ [atWordEdge, literal keyword, blanks1] [] rfl find
  · exact @enclosed_of_quotedModule _ _
      [atWordEdge, "import", blanks1, few (· != '\n'), blanks1, "from", blanks1] [] rfl find
  · exact @enclosed_of_quotedModule _ _ [atWordEdge, "require", blanks, "(", blanks] [blanks, ")"]
      (by simp [blanks]) find

/-- A header is named between angle brackets or double quotes. -/
theorem enclosed_of_headerPattern (find : found ∈ headerPattern.findAll text) :
    Text.Enclosed ("<\"".toList.contains ·) (">\"".toList.contains ·) (found.captured .name) text := by
  obtain ⟨skipped, is_behind⟩ := exists_isBehind_of_mem_findAll find
  refine @enclosed_of_isBehind _ _ _ _ (fun c => c != '>' && c != '"')
    [atStart, "#", blanks, "include", blanks1] [] skipped ?_ rfl is_behind
  intro c
  simp

/-! ## A keyword in front of a capital -/

/-- Two of the patterns need their keyword in front of a capital. -/
theorem keywordBefore_of_constantPattern {keyword : String} (listed : keyword ∈ constantKeywords)
    (find : found ∈ (constantPattern keyword).findAll text) :
    Text.KeywordBefore keyword Char.isUpper text := by
  have words : ∀ keyword ∈ constantKeywords,
      ∃ c ∈ keyword.toList.head?, Text.isWordChar c = true := by decide
  obtain ⟨c, starts, c_word⟩ := words keyword listed
  obtain ⟨skipped, is_behind⟩ := exists_isBehind_of_mem_findAll find
  obtain ⟨outside, rest, start_eq, mem⟩ :=
    exists_of_mem_stops_keyword starts c_word is_behind.mem_stops
  obtain ⟨_, rest_eq, gap, _, gap_spelled, ⟨_, _, ⟨_, later, ⟨_, word, ⟨capital, upper, rfl⟩, -, rfl⟩,
    -, rfl⟩, rfl, rfl⟩, rfl⟩ := spells_of_mem_stops mem
  obtain ⟨gap_ne, blank⟩ := spells_run.mp gap_spelled
  rw [Cursor.behind_rest] at rest_eq
  rw [is_behind.text, start_eq, rest_eq]
  refine ⟨skipped, gap, capital, word ++ (later ++ found.stop.rest), ?_, outside, gap_ne, blank, upper⟩
  simp

/-! ## A keyword at the start -/

theorem prefix_of_atStart {keyword : String} {parts : List (Pattern Captured)}
    (find : found ∈ (seq (atStart :: literal keyword :: parts)).findAll text) :
    keyword.toList <+: text := by
  have is_behind := isBehind_nil_of_mem_findAll find
  obtain ⟨_, text_eq, _, _, rfl, ⟨_, later, spelled, -, rfl⟩, rfl⟩ :=
    spells_of_mem_stops is_behind.mem_stops
  rw [is_behind.text, List.nil_append]
  refine ⟨later ++ found.stop.rest, ?_⟩
  rw [← spells_literal.mp spelled, ← List.append_assoc]
  exact text_eq.symm

/-- Four of the patterns need their keyword at the start of the text. -/
theorem prefix_of_anchoredPatterns {entry : String × Pattern Captured}
    (listed : entry ∈ anchoredPatterns) (find : found ∈ entry.2.findAll text) :
    entry.1.toList <+: text := by
  simp only [anchoredPatterns, List.mem_cons, List.not_mem_nil, or_false] at listed
  rcases listed with rfl | rfl | rfl | rfl <;> exact prefix_of_atStart find

/-- Whether a text starts with a keyword, blanks and a run of accepted characters. -/
def StartsWithRun (keyword : String) (accepts : Char → Bool) (run text : List Char) : Prop :=
  ∃ gap rest, text = keyword.toList ++ (gap ++ (run ++ rest)) ∧ (∀ c ∈ gap, Text.isBlank c = true) ∧
    run ≠ [] ∧ (∀ c ∈ run, accepts c = true) ∧ ∀ c ∈ rest.head?, accepts c = false

/-- The run behind the keyword is the first one. -/
theorem StartsWithRun.inj {keyword : String} {accepts : Char → Bool} {run run' : List Char}
    (kept : ∀ c, accepts c = true → Text.isBlank c = false)
    (starts : StartsWithRun keyword accepts run text)
    (starts' : StartsWithRun keyword accepts run' text) : run = run' := by
  obtain ⟨gap, rest, text_eq, blank, nonempty, all, ends⟩ := starts
  obtain ⟨gap', rest', text_eq', blank', nonempty', all', ends'⟩ := starts'
  have kept_first {run rest : List Char} (nonempty : run ≠ [])
      (all : ∀ c ∈ run, accepts c = true) : ∀ c ∈ (run ++ rest).head?, Text.isBlank c = false := by
    intro c first
    rw [List.head?_append_of_ne_nil run nonempty] at first
    exact kept c (all c (List.mem_of_mem_head? first))
  have same := List.append_cancel_left (text_eq.symm.trans text_eq')
  have same := (Text.append_run_inj blank blank' (kept_first nonempty all)
    (kept_first nonempty' all') same).2
  exact (Text.append_run_inj all all' ends ends' same).1

/-- A run is captured behind a keyword if something else has to follow it. -/
theorem startsWithRun_of_atStart {keyword : String} {accepts : Char → Bool}
    {after : List (Pattern Captured)} (silent : (seq after).captureBodies = [])
    (ends : ∀ later, (seq after).Spells later → ∃ c others, later = c :: others ∧ accepts c = false)
    (find : found ∈ (seq ([atStart, literal keyword, blanks1] ++
      capture .name (many1 accepts) :: after)).findAll text) :
    StartsWithRun keyword accepts (found.captured .name) text := by
  have other : ∀ capture ∈ (seq after).captureBodies, capture.1 ≠ Captured.name := by simp [silent]
  obtain ⟨taken, later, rest, text_eq, nonempty, all, before, spelled, -⟩ :=
    @exists_run_of_isBehind _ _ _ _ _ [atStart, literal keyword, blanks1] _ _ _ _ other
      (isBehind_nil_of_mem_findAll find)
  obtain ⟨_, _, rfl, ⟨_, _, keyword_spelled, ⟨gap, _, gap_spelled, rfl, rfl⟩, rfl⟩, rfl⟩ := before
  obtain ⟨c, others, rfl, refused⟩ := ends later spelled
  rw [spells_literal.mp keyword_spelled] at text_eq
  refine ⟨gap, c :: (others ++ rest), ?_, (spells_run.mp gap_spelled).2, nonempty, all, ?_⟩
  · rw [text_eq]
    simp
  · rintro _ ⟨⟩
    exact refused

/-- What stands between two keywords. -/
theorem startsWithRun_of_fromPattern (find : found ∈ fromPattern.findAll text) :
    StartsWithRun "from" (fun c => !Text.isBlank c) (found.captured .name) text := by
  refine @startsWithRun_of_atStart _ _ _ _ [blanks1, "import", atWordEdge] ?_ ?_ find
  · simp [blanks1, captureBodies]
  · rintro _ ⟨gap, _, gap_spelled, -, rfl⟩
    obtain ⟨nonempty, blank⟩ := spells_run.mp gap_spelled
    obtain ⟨b, others, rfl⟩ := List.exists_cons_of_ne_nil nonempty
    exact ⟨b, _, rfl, by rw [blank b List.mem_cons_self, Bool.not_true]⟩

/-- Whether a character can stand in a module that is used. -/
def isUsedChar (c : Char) : Bool := Text.isWordChar c || c == '\\'

theorem not_isBlank_of_isUsedChar {c : Char} (used : isUsedChar c = true) : Text.isBlank c = false :=
  Text.not_isBlank_of (by decide +kernel) used

/-- What stands between a keyword and a semicolon. -/
theorem startsWithRun_of_usePattern (find : found ∈ usePattern.findAll text) :
    StartsWithRun "use" isUsedChar (found.captured .name) text := by
  refine @startsWithRun_of_atStart _ _ "use" isUsedChar [blanks, ";"] (by simp [blanks]) ?_ find
  rintro _ ⟨gap, _, blank, ⟨_, _, semicolon, rfl, rfl⟩, rfl⟩
  rw [spells_literal.mp semicolon]
  cases gap with
  | nil => exact ⟨';', [], rfl, by decide⟩
  | cons b others =>
    refine ⟨b, _, rfl, Bool.eq_false_iff.mpr fun used => ?_⟩
    have kept := not_isBlank_of_isUsedChar used
    rw [blank b List.mem_cons_self] at kept
    cases kept

/-- Whether a character can stand in a module that is imported. -/
def isModuleChar (c : Char) : Bool := Text.isWordChar c || c == '.'

theorem not_isBlank_of_isModuleChar {c : Char} (accepted : isModuleChar c = true) :
    Text.isBlank c = false :=
  Text.not_isBlank_of (by decide +kernel) accepted

/-- The keyword `from` further on in a line. -/
def fromAhead : Pattern Captured := seq [many (· != '\n'), atWordEdge, "from", one Text.isBlank]

/-- What follows the keyword `import` is a module, and the keyword `from` does not follow it. -/
theorem exists_ahead_of_modulePattern (find : found ∈ modulePattern.findAll text) :
    ∃ behind, text = "import".toList ++ behind ∧
      (∃ c ∈ (Text.stripLeft behind).head?, isModuleChar c = true) ∧
      ∃ here : Cursor Captured, here.rest = Text.stripLeft behind ∧ fromAhead.stops here = [] := by
  have is_behind := isBehind_nil_of_mem_findAll find
  obtain ⟨_, start_mem, mem⟩ := mem_stops_seq_cons.mp is_behind.mem_stops
  obtain ⟨-, rfl⟩ := mem_stops_atStart.mp start_mem
  obtain ⟨_, keyword_mem, mem⟩ := mem_stops_seq_cons.mp mem
  obtain ⟨behind, start_eq, rfl⟩ := mem_stops_literal.mp keyword_mem
  obtain ⟨_, gap_mem, mem⟩ := mem_stops_seq_cons.mp mem
  obtain ⟨gap, rest, behind_eq, gap_ne, blank, rfl⟩ := mem_stops_run.mp gap_mem
  obtain ⟨_, ahead_mem, mem⟩ := mem_stops_seq_cons.mp mem
  obtain ⟨ahead, rfl⟩ := mem_stops_notAhead.mp ahead_mem
  obtain ⟨_, rest_eq, static, _, static_spelled, ⟨_, _, ⟨module, _, module_spelled, -, rfl⟩, rfl, rfl⟩,
    rfl⟩ := spells_of_mem_stops mem
  obtain ⟨module_ne, all⟩ := spells_run.mp module_spelled
  -- what follows the blanks begins with a modifier or with the module
  obtain ⟨c, others, first, accepted⟩ : ∃ c others, rest = c :: others ∧ isModuleChar c = true := by
    rw [Cursor.behind_rest] at rest_eq
    rw [rest_eq]
    rcases static_spelled with ⟨_, _, is_static, -, rfl⟩ | rfl
    · rw [spells_literal.mp is_static]
      exact ⟨'s', _, rfl, by decide⟩
    · obtain ⟨c, others, rfl⟩ := List.exists_cons_of_ne_nil module_ne
      exact ⟨c, _, rfl, all c List.mem_cons_self⟩
  have stripped : Text.stripLeft behind = rest := by
    rw [Cursor.behind_rest] at behind_eq
    rw [behind_eq, first]
    exact Text.stripLeft_append_cons blank (not_isBlank_of_isModuleChar accepted) others
  refine ⟨behind, ?_, ⟨c, ?_, accepted⟩, _, stripped.symm, ahead⟩
  · rw [is_behind.text]
    exact start_eq
  · rw [stripped, first]
    rfl

end TraceInquest
