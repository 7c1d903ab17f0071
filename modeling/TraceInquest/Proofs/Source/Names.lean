import TraceInquest.Proofs.Pattern.CapturedTexts
import TraceInquest.Proofs.Source.Symbols
import TraceInquest.Proofs.Text.Words

/-! # Extracted names

The names of functions are words that may end with a question or an exclamation mark, so none of
them holds a comma or a full stop. Imports can hold nearly everything, but no line feed.

* **`mem_namesInLine`** — a name is captured by a find in the line.
* **`isLine_of_mem_namesIn`** — the names in a file are lines.
* **`IsFunctionName`**, **`isFunctionName_of_mem_namesInLine`** — the names of functions.
* **`isFunctionName_of_matchDeclaration?`** — what a line declares is such a name. -/

namespace TraceInquest

open Pattern

variable {content name : String} {line : List Char}

/-! ## Names and the lines they stand in -/

/-- A name is captured by a find in the line without the blanks around it. -/
theorem mem_namesInLine {patterns : List (Pattern Captured)} :
    name ∈ namesInLine patterns line ↔ ∃ pattern ∈ patterns,
      ∃ found ∈ pattern.findAll (Text.strip line),
        name = String.ofList (found.captured .name) := by
  simp [namesInLine, List.mem_flatMap, eq_comm]

/-- The names in a file are lines. -/
theorem isLine_of_mem_namesIn {patterns : List (Pattern Captured)} {excluded : List String}
    (mem : name ∈ namesIn patterns excluded content) : Text.IsLine name := by
  obtain ⟨⟨line, cut, in_line⟩, -⟩ := mem_namesIn.mp mem
  obtain ⟨pattern, -, found, find, rfl⟩ := mem_namesInLine.mp in_line
  have part : found.captured .name <:+: line :=
    ((isIn_of_mem_findAll find).infix_captured .name).trans (Text.strip_infix line)
  rw [Text.IsLine, String.toList_ofList]
  exact fun broken => Text.not_mem_of_mem_pieces cut (part.subset broken)

/-! ## Names of functions -/

/-- Whether a text can be the name of a function: a word, which may end with a mark. -/
def IsFunctionName (text : List Char) : Prop :=
  ∃ word mark, text = word ++ mark ∧ Text.IsWord word ∧ mark ∈ [[], ['!'], ['?']]

/-- The characters in the name of a function. -/
def isNameChar (c : Char) : Bool := Text.isWordChar c || c == '!' || c == '?'

theorem IsFunctionName.isNameChar {text : List Char} (is_name : IsFunctionName text) :
    ∀ c ∈ text, isNameChar c = true := by
  obtain ⟨word, mark, rfl, is_word, marked⟩ := is_name
  have mark_chars : ∀ mark ∈ [[], ['!'], ['?']], ∀ c ∈ mark, TraceInquest.isNameChar c = true := by
    decide
  refine List.forall_mem_append.mpr ⟨fun c mem => ?_, mark_chars mark marked⟩
  simp [TraceInquest.isNameChar, is_word.all c mem]

/-- Every declaration pattern captures a word, which the first one lets end with a mark. -/
theorem captureBodies_of_mem_declarationPatterns {pattern : Pattern Captured}
    (mem : pattern ∈ declarationPatterns) : ∀ capture ∈ pattern.captureBodies,
      capture.2 = many1 Text.isWordChar ∨
        capture.2 = seq [many1 Text.isWordChar, optional (among "!?")] := by
  simp only [declarationPatterns, List.mem_cons, List.not_mem_nil, or_false] at mem
  rcases mem with rfl | rfl | rfl | rfl | rfl | rfl | rfl | rfl | rfl <;>
    simp [captureBodies, wordName, blanks, blanks1, arguments, oneOf]

/-- Each of them captures its word on every way to a stop. -/
theorem alwaysCaptures_of_mem_declarationPatterns :
    ∀ pattern ∈ declarationPatterns, pattern.alwaysCaptures .name = true := by decide

/-- What such a capture spells is the name of a function. -/
theorem isFunctionName_of_spells {body : Pattern Captured}
    (one_of : body = many1 Text.isWordChar ∨
      body = seq [many1 Text.isWordChar, optional (among "!?")])
    {text : List Char} (spelled : body.Spells text) : IsFunctionName text := by
  rcases one_of with rfl | rfl
  · obtain ⟨nonempty, all⟩ := spells_run.mp spelled
    exact ⟨text, [], (List.append_nil text).symm, ⟨nonempty, all⟩, by decide⟩
  · obtain ⟨word, _, word_spelled, ⟨mark, _, mark_spelled, rfl, rfl⟩, rfl⟩ := spelled
    obtain ⟨nonempty, all⟩ := spells_run.mp word_spelled
    refine ⟨word, mark, by rw [List.append_nil], ⟨nonempty, all⟩, ?_⟩
    rcases mark_spelled with ⟨c, accepted, rfl⟩ | rfl
    · have marks : c = '!' ∨ c = '?' := by simpa using accepted
      rcases marks with rfl | rfl <;> decide
    · decide

/-- What the declaration patterns capture is the name of a function. -/
theorem isFunctionName_of_mem_namesInLine (mem : name ∈ namesInLine declarationPatterns line) :
    IsFunctionName name.toList := by
  obtain ⟨pattern, listed, found, find, rfl⟩ := mem_namesInLine.mp mem
  have always := alwaysCaptures_of_mem_declarationPatterns pattern listed
  obtain ⟨body, body_mem, spelled⟩ := (isIn_of_mem_findAll find).spells_captured always
  have one_of := captureBodies_of_mem_declarationPatterns listed _ body_mem
  rw [String.toList_ofList]
  exact isFunctionName_of_spells one_of spelled

/-- The functions of a file have names of functions. -/
theorem isFunctionName_of_mem_extractFunctions (mem : name ∈ extractFunctions content) :
    IsFunctionName name.toList := by
  obtain ⟨⟨line, -, in_line⟩, -⟩ := mem_namesIn.mp mem
  exact isFunctionName_of_mem_namesInLine in_line

/-- What a line declares is the name of a function. -/
theorem isFunctionName_of_matchDeclaration? (declared : matchDeclaration? line = some name) :
    IsFunctionName name.toList :=
  isFunctionName_of_mem_namesInLine (mem_namesInLine_of_matchDeclaration? declared).1

/-- The name that stands for an unknown function is not the name of a function. -/
theorem ne_unknownFunction_of_matchDeclaration? (declared : matchDeclaration? line = some name) :
    name ≠ unknownFunction := by
  rintro rfl
  have bracket := (isFunctionName_of_matchDeclaration? declared).isNameChar '<' (by decide)
  exact absurd bracket (by decide)

end TraceInquest
