import TraceInquest.Pattern.Search
import TraceInquest.Text.Blank

/-! # Declarations of functions

A line declares a function if one of nine patterns finds a name in it. The patterns of the C
family are loose enough to find keywords that are followed by a parenthesis, so some words are
never names.

* **`declarationPatterns`** — the nine patterns, in order of precedence.
* **`matchDeclaration? line`** — the function that a line declares. -/

namespace TraceInquest

/-- The label of the one text that a pattern captures. -/
inductive Captured where
  | name
  deriving DecidableEq, Repr

open Pattern

/-- Words that look like names of functions in front of a parenthesis and are none. -/
def nonDeclarationNames : List String :=
  ["if", "elsif", "else", "unless", "until", "for", "foreach", "while", "switch", "case",
   "when", "catch", "rescue", "return", "new", "throw", "do", "function", "typeof", "sizeof",
   "super"]

/-- Any number of blanks. -/
def blanks : Pattern Captured := many Text.isBlank

/-- At least one blank. -/
def blanks1 : Pattern Captured := many1 Text.isBlank

/-- A name made of word characters, captured. -/
def wordName : Pattern Captured := capture .name (many1 Text.isWordChar)

/-- The arguments of a function, from the opening to the first closing parenthesis. -/
def arguments : Pattern Captured := seq ["(", many (· != ')'), ")"]

/-- Words that cannot be the type of a declared function. -/
def nonTypeWords : List String :=
  ["return", "new", "throw", "raise", "if", "elif", "else", "unless", "until", "while", "when",
   "case", "for", "in", "is", "with", "except", "and", "or", "not", "class", "struct",
   "interface", "enum", "await", "yield", "delete", "defer", "go", "echo", "puts", "print",
   "assert"]

/-- The modifiers in front of a declaration of the C family. -/
def modifiers : List String :=
  ["public", "private", "protected", "internal", "static", "final", "abstract", "override",
   "virtual", "async", "synchronized"]

/-- The characters of a type in a declaration of the C family. -/
def isTypeChar (c : Char) : Bool := Text.isWordChar c || "<>[],.?*&".toList.contains c

/-- The patterns of declarations. They are tried on a line without the blanks around it, and the
first that finds a name decides. -/
def declarationPatterns : List (Pattern Captured) :=
  [ -- `def name`, `def self.name`
    seq [atWordEdge, "def", blanks1, optional "self.",
      capture .name (seq [many1 Text.isWordChar, optional (among "!?")])],
    -- a block bound to a name: `name = lambda`, `name = proc do`
    seq [wordName, blanks, "=", blanks, words ["lambda", "proc"], blanks,
      oneOf ["\x7b", seq [atWordEdge, "do", atWordEdge]]],
    -- `name = ->(arguments)`
    seq [wordName, blanks, "=", blanks, "->", blanks, "("],
    -- `function name(`
    seq [atWordEdge, "function", atWordEdge, blanks, optional "*", blanks, wordName, blanks,
      "("],
    -- `name: function`
    seq [wordName, blanks, ":", blanks, optional (seq ["async", blanks1]), "function",
      atWordEdge],
    -- `const name = (arguments) =>`
    seq [atWordEdge, words ["const", "let", "var"], blanks1, wordName, blanks, "=", blanks,
      optional (seq ["async", blanks]), arguments, blanks, "=>"],
    -- `func name(`, `func (receiver) name(`
    seq [atStart, "func", blanks1, optional (seq [arguments, blanks]), wordName, blanks, "("],
    -- a method with its body: `name(arguments)`
    seq [atStart, repeated (seq [words ["static", "async", "get", "set"], blanks1]), wordName,
      blanks, arguments, blanks, "\x7b"],
    -- `modifiers Type name(arguments)`, not ended by a semicolon
    seq [atStart, repeated (seq [words modifiers, blanks1]),
      notAhead (seq [words nonTypeWords, atWordEdge]), many1 isTypeChar, blanks1, many (· == '*'),
      wordName, blanks, "(", many (· != ';'), Pattern.atEnd] ]

/-- The function that a line declares: the first pattern decides whose first find is a name. -/
def matchDeclaration? (line : List Char) : Option String :=
  let stripped := Text.strip line
  declarationPatterns.findSome? fun pattern =>
    match pattern.find? stripped with
    | some found =>
      let name := String.ofList (found.captured .name)
      if nonDeclarationNames.contains name then none else some name
    | none => none

end TraceInquest
