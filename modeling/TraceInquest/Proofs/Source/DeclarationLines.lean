import TraceInquest.Proofs.Source.DeclarationTexts

/-! # Layouts of declarations

A declaration in one of thirteen layouts declares one name and nothing else, however it is indented.

* **`DeclarationLine name line`** — the layouts, each with the name that it declares.
* **`declares_exactly`** — the function of a line, and the functions of a file with this line. -/

namespace TraceInquest

open Pattern

/-! ## Layouts -/

/-- The layouts of declarations, each with the name that it declares. -/
inductive DeclarationLine : (name line : String) → Prop
  | definition (name : FunctionName) (args : ArgumentText) {mark : String}
    (marked : mark ∈ ["", "!", "?"]) :
    DeclarationLine (name.text ++ mark) ("def " ++ name.text ++ mark ++ "(" ++ args.text ++ ")")
  | ownDefinition (name : FunctionName) (args : ArgumentText) {mark : String}
    (marked : mark ∈ ["", "!", "?"]) :
    DeclarationLine (name.text ++ mark)
      ("def self." ++ name.text ++ mark ++ "(" ++ args.text ++ ")")
  | asyncDefinition (name : FunctionName) (args : ArgumentText) :
    DeclarationLine name.text ("async def " ++ name.text ++ "(" ++ args.text ++ "):")
  | function (name : FunctionName) (args : ArgumentText) :
    DeclarationLine name.text ("function " ++ name.text ++ "(" ++ args.text ++ ") \x7b")
  | functionValue (name : FunctionName) (args : ArgumentText) :
    DeclarationLine name.text (name.text ++ ": function (" ++ args.text ++ ") \x7b")
  | arrow (name : FunctionName) (args : ArgumentText) :
    DeclarationLine name.text ("const " ++ name.text ++ " = (" ++ args.text ++ ") => \x7b")
  | lambdaBlock (name : FunctionName) : DeclarationLine name.text (name.text ++ " = lambda \x7b")
  | procBlock (name : FunctionName) : DeclarationLine name.text (name.text ++ " = proc do")
  | lambda (name : FunctionName) (args : ArgumentText) :
    DeclarationLine name.text (name.text ++ " = ->(" ++ args.text ++ ") \x7b")
  | func (name : FunctionName) (args : ArgumentText) :
    DeclarationLine name.text ("func " ++ name.text ++ "(" ++ args.text ++ ") \x7b")
  | receiver (name : FunctionName) (receiver args : ArgumentText) :
    DeclarationLine name.text
      ("func (" ++ receiver.text ++ ") " ++ name.text ++ "(" ++ args.text ++ ") \x7b")
  | method (name : FunctionName) (args : ArgumentText) :
    DeclarationLine name.text (name.text ++ "(" ++ args.text ++ ") \x7b")
  | typed (type : TypeWord) (name : FunctionName) (args : ArgumentText) :
    DeclarationLine name.text (type.text ++ " " ++ name.text ++ "(" ++ args.text ++ ") \x7b")

variable {name line : String} {text : List Char}

/-- A line in which the patterns find one name alone declares it and nothing else. -/
theorem DeclaresOnly.declares (finds : DeclaresOnly name.toList text) (is_line : Text.IsLine line)
    (stripped : Text.strip line.toList = text) (allowed : name ∉ nonDeclarationNames) :
    matchDeclaration? line.toList = some name ∧ extractFunctions line = [name] := by
  subst stripped
  obtain ⟨pattern, listed, found, find, captured⟩ := finds.first
  have captured_name : name = String.ofList (found.captured .name) := by
    rw [captured, String.ofList_toList]
  have only : ∀ other ∈ namesInLine declarationPatterns line.toList,
      other ∉ nonDeclarationNames → other = name := by
    intro other in_line unreserved
    obtain ⟨pattern, listed, found, find, rfl⟩ := mem_namesInLine.mp in_line
    rw [(finds.only pattern listed found find).resolve_right unreserved, String.ofList_toList]
  constructor
  · cases declared : matchDeclaration? line.toList with
    | none =>
      have reserved := matchDeclaration?_eq_none_iff.mp declared pattern listed found find
      rw [Found.IsReserved, ← captured_name] at reserved
      exact absurd reserved allowed
    | some other =>
      obtain ⟨in_line, unreserved⟩ := mem_namesInLine_of_matchDeclaration? declared
      rw [only other in_line unreserved]
  · exact namesIn_eq_singleton is_line allowed
      (mem_namesInLine.mpr ⟨pattern, listed, found, mem_findAll_of_find? find, captured_name⟩) only

/-! ## Any of the layouts -/

/-- The text of a line whose blanks in front are left out. -/
structure DeclarationText (name line : String) (gap text : List Char) : Prop where
  line_eq : line.toList = gap ++ text
  gap_blank : ∀ c ∈ gap, Text.isBlank c = true
  trimmed : Text.IsTrimmed text
  finds : DeclaresOnly name.toList text

theorem DeclarationText.of_line (trimmed : Text.IsTrimmed line.toList)
    (finds : DeclaresOnly name.toList line.toList) : ∃ gap text, DeclarationText name line gap text :=
  ⟨[], line.toList, rfl, List.forall_mem_nil _, trimmed, finds⟩

/-- A line that begins with a word and ends with a sign is trimmed. -/
theorem isTrimmed_of_isWord {first middle last : List Char} (is_word : Text.IsWord first)
    (last_ne : last ≠ []) (ends : ∀ c ∈ last.getLast?, Text.isBlank c = false) :
    Text.IsTrimmed (first ++ (middle ++ last)) :=
  Text.isTrimmed_append is_word.nonempty
    (fun c mem => is_word.not_isBlank c (List.mem_of_mem_head? mem)) last_ne ends

/-- A line in which the keyword `def` stands in front of the name. -/
theorem DeclarationText.of_definition {lead receiver mark : String} {name : FunctionName}
    {args : ArgumentText} {tail : List Char} (led : lead ∈ ["", "async "])
    (received : receiver ∈ ["", "self."]) (marked : mark ∈ ["", "!", "?"])
    (ended : tail ∈ callTails)
    (line_eq : line.toList = lead.toList ++ ("def ".toList ++ (receiver.toList ++
      (name.text.toList ++ (mark.toList ++ '(' :: (args.text.toList ++ ')' :: tail)))))) :
    ∃ gap text, DeclarationText (name.text ++ mark) line gap text := by
  have only := declaresOnly_definition led received marked ended line_eq
  rw [← String.toList_append] at only
  refine of_line ?_ only
  have cut : line.toList = (lead.toList ++ "def ".toList) ++ ((receiver.toList ++
      (name.text.toList ++ (mark.toList ++ '(' :: args.text.toList))) ++ ')' :: tail) := by
    rw [line_eq]
    simp only [List.append_assoc, List.cons_append]
  have starts : ∀ c ∈ (lead.toList ++ "def ".toList).head?, Text.isBlank c = false := by
    simp only [List.mem_cons, List.not_mem_nil, or_false] at led
    rcases led with rfl | rfl <;> decide
  have ends : ∀ c ∈ (')' :: tail).getLast?, Text.isBlank c = false := by
    simp only [callTails, List.mem_cons, List.not_mem_nil, or_false] at ended
    rcases ended with rfl | rfl | rfl <;> decide
  rw [cut]
  exact Text.isTrimmed_append (by simp) starts (List.cons_ne_nil _ _) ends

/-- A line with one call behind a type, of which the keywords `function` and `func` are two. -/
theorem DeclarationText.of_typed {type : TypeWord} {name : FunctionName} {args : ArgumentText}
    (nonempty : type.text.toList ≠ [])
    (line_eq : line.toList = type.text.toList ++ ' ' ::
      (name.text.toList ++ '(' :: (args.text.toList ++ ')' :: " \x7b".toList))) :
    ∃ gap text, DeclarationText name.text line gap text := by
  refine of_line ?_ (declaresOnly_typed nonempty line_eq)
  have cut : line.toList = type.text.toList ++ ((' ' ::
      (name.text.toList ++ '(' :: args.text.toList)) ++ ") \x7b".toList) := by
    rw [line_eq]
    simp only [List.append_assoc, List.cons_append]
    rfl
  rw [cut]
  exact isTrimmed_of_isWord ⟨nonempty, type.all⟩ (by decide) (by decide)

/-- The keyword `function` in the place of a type. -/
def functionKeyword : TypeWord := ⟨"function", by decide, by decide⟩

/-- The keyword `func` in the place of a type. -/
def funcKeyword : TypeWord := ⟨"func", by decide, by decide⟩

/-- A line that begins with the name. -/
theorem DeclarationText.of_method {name : FunctionName} {args : ArgumentText} {gap : List Char}
    (blank : ∀ c ∈ gap, Text.isBlank c = true)
    (line_eq : line.toList = gap ++
      (name.text.toList ++ '(' :: (args.text.toList ++ ')' :: " \x7b".toList))) :
    ∃ gap text, DeclarationText name.text line gap text := by
  refine ⟨gap, _, line_eq, blank, ?_, declaresOnly_method rfl⟩
  have cut : name.text.toList ++ '(' :: (args.text.toList ++ ')' :: " \x7b".toList) =
      name.text.toList ++ (('(' :: args.text.toList) ++ ") \x7b".toList) := by
    simp only [List.cons_append]
    rfl
  rw [cut]
  exact isTrimmed_of_isWord name.is_word (by decide) (by decide)

/-- A line in which a receiver stands in front of the name. -/
theorem DeclarationText.of_receiver {name : FunctionName} {receiver args : ArgumentText}
    (line_eq : line.toList = "func ".toList ++ '(' :: (receiver.text.toList ++ ')' :: ' ' ::
      (name.text.toList ++ '(' :: (args.text.toList ++ ')' :: " \x7b".toList)))) :
    ∃ gap text, DeclarationText name.text line gap text := by
  refine of_line ?_ (declaresOnly_receiver line_eq)
  have cut : line.toList = "func (".toList ++ ((receiver.text.toList ++ (") ".toList ++
      (name.text.toList ++ '(' :: args.text.toList))) ++ ") \x7b".toList) := by
    rw [line_eq]
    simp only [List.append_assoc]
    rfl
  rw [cut]
  exact Text.isTrimmed_append (by decide) (by decide) (by decide) (by decide)

/-- A line in which a function is the value of a name. -/
theorem DeclarationText.of_functionValue {name : FunctionName} {args : ArgumentText}
    (line_eq : line.toList = name.text.toList ++
      (": function (".toList ++ (args.text.toList ++ ')' :: " \x7b".toList))) :
    ∃ gap text, DeclarationText name.text line gap text := by
  refine of_line ?_ (declaresOnly_functionValue line_eq)
  have cut : line.toList =
      name.text.toList ++ ((": function (".toList ++ args.text.toList) ++ ") \x7b".toList) := by
    rw [line_eq]
    simp only [List.append_assoc]
    rfl
  rw [cut]
  exact isTrimmed_of_isWord name.is_word (by decide) (by decide)

/-- A line in which an arrow function is assigned to a name. -/
theorem DeclarationText.of_arrow {name : FunctionName} {args : ArgumentText}
    (line_eq : line.toList = "const ".toList ++ (name.text.toList ++
      (" = (".toList ++ (args.text.toList ++ ") => \x7b".toList)))) :
    ∃ gap text, DeclarationText name.text line gap text := by
  refine of_line ?_ (declaresOnly_arrow line_eq)
  have cut : line.toList = "const ".toList ++
      ((name.text.toList ++ (" = (".toList ++ args.text.toList)) ++ ") => \x7b".toList) := by
    rw [line_eq]
    simp only [List.append_assoc]
  rw [cut]
  exact Text.isTrimmed_append (by decide) (by decide) (by decide) (by decide)

/-- A line in which a block is assigned to a name. -/
theorem DeclarationText.of_block {name : FunctionName} {block : String}
    (opened : block ∈ ["lambda \x7b", "proc do"])
    (line_eq : line.toList = name.text.toList ++ (" = ".toList ++ block.toList)) :
    ∃ gap text, DeclarationText name.text line gap text := by
  refine of_line ?_ (declaresOnly_block opened line_eq)
  have ends : block.toList ≠ [] ∧ ∀ c ∈ block.toList.getLast?, Text.isBlank c = false := by
    simp only [List.mem_cons, List.not_mem_nil, or_false] at opened
    rcases opened with rfl | rfl <;> decide
  rw [line_eq]
  exact isTrimmed_of_isWord name.is_word ends.1 ends.2

/-- A line in which a lambda is assigned to a name. -/
theorem DeclarationText.of_lambda {name : FunctionName} {args : ArgumentText}
    (line_eq : line.toList = name.text.toList ++
      (" = ->(".toList ++ (args.text.toList ++ ')' :: " \x7b".toList))) :
    ∃ gap text, DeclarationText name.text line gap text := by
  refine of_line ?_ (declaresOnly_lambda line_eq)
  have cut : line.toList =
      name.text.toList ++ ((" = ->(".toList ++ args.text.toList) ++ ") \x7b".toList) := by
    rw [line_eq]
    simp only [List.append_assoc]
    rfl
  rw [cut]
  exact isTrimmed_of_isWord name.is_word (by decide) (by decide)

/-- A line of any layout, without the blanks in front of it. -/
theorem DeclarationLine.exists_text (declared : DeclarationLine name line) :
    ∃ gap text, DeclarationText name line gap text := by
  cases declared with
  | definition name args marked =>
    refine @DeclarationText.of_definition _ "" "" _ name args "".toList (by decide) (by decide) marked
      (by decide) ?_
    simp only [String.toList_append, List.append_assoc]
    rfl
  | ownDefinition name args marked =>
    refine @DeclarationText.of_definition _ "" "self." _ name args "".toList (by decide) (by decide)
      marked (by decide) ?_
    simp only [String.toList_append, List.append_assoc]
    rfl
  | asyncDefinition name args =>
    rw [← @String.append_empty name.text]
    refine @DeclarationText.of_definition _ "async " "" "" name args ":".toList (by decide)
      (by decide) (by decide) (by decide) ?_
    simp only [String.toList_append, List.append_assoc]
    rfl
  | function name args =>
    refine @DeclarationText.of_typed _ functionKeyword name args (by decide) ?_
    simp only [String.toList_append, List.append_assoc]
    rfl
  | functionValue name args =>
    refine @DeclarationText.of_functionValue _ name args ?_
    simp only [String.toList_append, List.append_assoc]
    rfl
  | arrow name args =>
    refine @DeclarationText.of_arrow _ name args ?_
    simp only [String.toList_append, List.append_assoc]
  | lambdaBlock name =>
    refine @DeclarationText.of_block _ name "lambda \x7b" (by decide) ?_
    rw [String.toList_append]
    rfl
  | procBlock name =>
    refine @DeclarationText.of_block _ name "proc do" (by decide) ?_
    rw [String.toList_append]
    rfl
  | lambda name args =>
    refine @DeclarationText.of_lambda _ name args ?_
    simp only [String.toList_append, List.append_assoc]
    rfl
  | func name args =>
    refine @DeclarationText.of_typed _ funcKeyword name args (by decide) ?_
    simp only [String.toList_append, List.append_assoc]
    rfl
  | receiver name receiver args =>
    refine @DeclarationText.of_receiver _ name receiver args ?_
    simp only [String.toList_append, List.append_assoc]
    rfl
  | method name args =>
    refine @DeclarationText.of_method _ name args [] (List.forall_mem_nil _) ?_
    simp only [String.toList_append, List.append_assoc]
    rfl
  | typed type name args =>
    -- without a type the blank behind it is in front of the line
    by_cases nonempty : type.text.toList = []
    · refine @DeclarationText.of_method _ name args [' '] (by decide) ?_
      simp only [String.toList_append, List.append_assoc, nonempty]
      rfl
    · refine @DeclarationText.of_typed _ type name args nonempty ?_
      simp only [String.toList_append, List.append_assoc]
      rfl

/-! ## What a line declares -/

theorem FunctionName.isLine (name : FunctionName) : Text.IsLine name.text :=
  name.is_word.not_mem (by decide)

theorem TypeWord.isLine (type : TypeWord) : Text.IsLine type.text := by
  intro broken
  exact absurd (type.all _ broken) (by decide)

namespace DeclarationLine

theorem isLine (declared : DeclarationLine name line) : Text.IsLine line := by
  have marks : ∀ mark ∈ ["", "!", "?"], Text.IsLine mark := by decide
  cases declared
  case definition name args mark marked =>
    simp only [Text.isLine_append, name.isLine, args.is_line, marks mark marked, and_true]
    decide
  case ownDefinition name args mark marked =>
    simp only [Text.isLine_append, name.isLine, args.is_line, marks mark marked, and_true]
    decide
  all_goals
    simp only [Text.isLine_append, FunctionName.isLine, ArgumentText.is_line, TypeWord.isLine,
      and_true, true_and]
    decide

/-- No reserved word ends with a mark. -/
theorem not_mem_nonDeclarationNames (name : FunctionName) {mark : String}
    (marked : mark ∈ ["", "!", "?"]) : name.text ++ mark ∉ nonDeclarationNames := by
  have reserved_word : ∀ word ∈ nonDeclarationNames, '!' ∉ word.toList ∧ '?' ∉ word.toList := by
    decide
  simp only [List.mem_cons, List.not_mem_nil, or_false] at marked
  rcases marked with rfl | rfl | rfl
  · rw [String.append_empty]
    exact name.allowed
  · exact fun listed => (reserved_word _ listed).1 (by simp)
  · exact fun listed => (reserved_word _ listed).2 (by simp)

theorem allowed (declared : DeclarationLine name line) : name ∉ nonDeclarationNames := by
  cases declared
  case definition name args mark marked => exact not_mem_nonDeclarationNames name marked
  case ownDefinition name args mark marked => exact not_mem_nonDeclarationNames name marked
  all_goals exact FunctionName.allowed _

end DeclarationLine

/-- A line of one of the layouts, however it is indented, declares its name and nothing else. -/
theorem declares_exactly {before after : String} (declared : DeclarationLine name line)
    (before_gap : Text.IsGap before.toList) (after_gap : Text.IsGap after.toList) :
    matchDeclaration? (before ++ line ++ after).toList = some name ∧
      extractFunctions (before ++ line ++ after) = [name] := by
  obtain ⟨gap, text, line_eq, gap_blank, trimmed, finds⟩ := declared.exists_text
  have is_line : Text.IsLine (before ++ line ++ after) := by
    rw [Text.isLine_append, Text.isLine_append]
    exact ⟨⟨fun mem => (before_gap _ mem).2 rfl, declared.isLine⟩, fun mem => (after_gap _ mem).2 rfl⟩
  have stripped : Text.strip (before ++ line ++ after).toList = text := by
    rw [String.toList_append, String.toList_append, line_eq, List.append_assoc, List.append_assoc,
      ← List.append_assoc before.toList]
    exact trimmed.strip_eq (List.forall_mem_append.mpr ⟨before_gap.blank, gap_blank⟩) after_gap.blank
  exact finds.declares is_line stripped declared.allowed

/-- A type that is a modifier too, a name with letters of other scripts, and a colon in the
arguments. -/
theorem declares_exactly_static :
    DeclarationLine "größe" ("static" ++ " " ++ "größe" ++ "(" ++ "x: int, y" ++ ") \x7b") ∧
      matchDeclaration? ("\t " ++ "static größe(x: int, y) \x7b" ++ "  ").toList = some "größe" ∧
      extractFunctions ("\t " ++ "static größe(x: int, y) \x7b" ++ "  ") = ["größe"] := by
  have declared :
      DeclarationLine "größe" ("static" ++ " " ++ "größe" ++ "(" ++ "x: int, y" ++ ") \x7b") :=
    .typed ⟨"static", by decide, by decide⟩
      ⟨"größe", ⟨by decide, by decide +kernel⟩, by decide⟩
      ⟨"x: int, y", by decide, by decide, by decide +kernel, by decide +kernel⟩
  exact ⟨declared, declares_exactly declared (by decide) (by decide)⟩

end TraceInquest
