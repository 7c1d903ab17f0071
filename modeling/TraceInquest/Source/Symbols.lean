import TraceInquest.Source.Import
import TraceInquest.Text.Lines

/-! # Functions and imports of a source file

Every line of a source file is searched with every pattern, and every find counts. Names are
listed once, in the order in which they are first seen.

* **`addNew`** — a list with the new members of another added at its end.
* **`extractFunctions content`**, **`extractImports content`** — the names in a file. -/

namespace TraceInquest

/-- Adds at the end what the list does not hold yet, in order. -/
def addNew (names additions : List String) : List String :=
  additions.foldl (fun names name => if names.contains name then names else names ++ [name])
    names

@[simp] theorem addNew_nil (names : List String) : addNew names [] = names := rfl

theorem addNew_append (names first second : List String) :
    addNew names (first ++ second) = addNew (addNew names first) second := by
  simp [addNew]

/-- What the patterns capture in one line: pattern by pattern, from left to right. -/
def namesInLine (patterns : List (Pattern Captured)) (line : List Char) : List String :=
  let stripped := Text.strip line
  patterns.flatMap fun pattern =>
    (pattern.findAll stripped).map fun found => String.ofList (found.captured .name)

/-- What the patterns capture in a file, each name once and in the order of first appearance. -/
def namesIn (patterns : List (Pattern Captured)) (excluded : List String) (content : String) :
    List String :=
  addNew [] <| (Text.pieces content.toList).flatMap fun line =>
    (namesInLine patterns line).filter fun name => !excluded.contains name

/-- The functions that a file declares. -/
def extractFunctions (content : String) : List String :=
  namesIn declarationPatterns nonDeclarationNames content

/-- The modules that a file imports. -/
def extractImports (content : String) : List String := namesIn importPatterns [] content

end TraceInquest
