import TraceInquest.Pattern.Search
import TraceInquest.Text.Blank
import TraceInquest.Text.Digit
import TraceInquest.Trace.Frame

/-! # The layouts of a frame

Interpreters and virtual machines print the frames of a stack trace in a handful of layouts. Each
layout is a pattern that captures the parts of a frame; it may stand anywhere in a line. The
layouts are tried from the particular to the general, because the general ones are found in the
lines of the particular ones too.

* **`TraceRule`** — the seven layouts, `TraceRule.all` their order.
* **`TraceRule.layout`** — the pattern of a layout.
* **`frameOf found`** — the frame made of the captured parts. -/

namespace TraceInquest

/-- The parts of a frame that a layout captures. -/
inductive FramePart where
  | path
  | function
  | line
  | column
  deriving DecidableEq, Repr

/-- The layouts in which frames are written. -/
inductive TraceRule where
  /-- A Ruby caller: `from path:line:in 'function'`. -/
  | rubyFrom
  /-- A Ruby frame: `path:line:in 'function'`. -/
  | rubyIn
  /-- A Ruby location without a function: `path.rb:line`. -/
  | rubyBare
  /-- A JavaScript frame: `at function (path:line:column)`. -/
  | javascript
  /-- A Python frame: `File "path", line N, in function`. -/
  | python
  /-- A Java frame: `at function(path:line)`. -/
  | java
  /-- Any `function path:line`. -/
  | generic
  deriving DecidableEq, Repr

namespace TraceRule

/-- All layouts, from the particular to the general. -/
def all : List TraceRule := [rubyFrom, rubyIn, rubyBare, javascript, python, java, generic]

open Pattern

/-- A blank. -/
private def blanks1 : Pattern FramePart := many1 Text.isBlank

/-- A number of a frame. -/
private def number (part : FramePart) : Pattern FramePart := capture part (many1 Text.isDigit)

/-- Any character but a line feed. -/
def isInLine (c : Char) : Bool := c != '\n'

/-- A part of a frame that ends as soon as what follows it can be matched. -/
private def part (part : FramePart) : Pattern FramePart := capture part (few1 isInLine)

/-- The pattern of a layout. -/
def layout : TraceRule → Pattern FramePart
  | rubyFrom =>
    seq ["from", blanks1, part .path, ":", number .line, ":in", blanks1, among "`'",
      part .function, "'"]
  | rubyIn =>
    seq [part .path, ":", number .line, ":in", blanks1, among "`'", part .function, "'"]
  | rubyBare =>
    seq [capture .path (seq [many1 isInLine, ".", words ["rb", "rake", "erb"]]), ":",
      number .line]
  | javascript =>
    seq ["at", blanks1, part .function, blanks1, "(", part .path, ":", number .line, ":",
      number .column, ")"]
  | python =>
    seq ["File", blanks1, "\"", part .path, "\",", blanks1, "line", blanks1, number .line, ",",
      blanks1, "in", blanks1, capture .function (many1 isInLine)]
  | java =>
    seq ["at", blanks1, part .function, "(", part .path, ":", number .line, ")"]
  | generic =>
    seq [capture .function (many1 Text.isWordChar), blanks1, part .path, ":", number .line]

end TraceRule

/-! ## From captures to a frame -/

/-- The characters that part the directories of a path. -/
def isSeparator (c : Char) : Bool := c == '/' || c == '\\'

/-- What follows the last separator of a path. -/
def baseName (path : List Char) : List Char :=
  (path.reverse.takeWhile fun c => !isSeparator c).reverse

/-- A base name has no separator in it. -/
theorem not_isSeparator_of_mem_baseName {path : List Char} {c : Char} (h : c ∈ baseName path) :
    isSeparator c = false := by
  have aux : ∀ {l : List Char}, c ∈ l.takeWhile (fun c => !isSeparator c) →
      isSeparator c = false := by
    intro l
    induction l with
    | nil => simp
    | cons d l ih =>
      intro mem
      by_cases sep : isSeparator d
      · simp [sep] at mem
      · simp only [List.takeWhile_cons, sep, Bool.not_false, if_true, List.mem_cons] at mem
        rcases mem with rfl | mem
        · simpa using sep
        · exact ih mem
  exact aux (by simpa [baseName] using h)

/-- The name of a function without blanks around it, or `unknownFunction` if nothing is left. -/
def functionName (captured : List Char) : String :=
  let name := Text.strip captured
  if name.isEmpty then unknownFunction else String.ofList name

/-- The frame made of the captured parts; its numbers may be too long, the line's being read
first. -/
def frameOf (found : Found FramePart) : Except Text.NumeralTooLong Frame := do
  let line ← Text.readNumeral (found.captured .line)
  let column ← (found.captured? .column).mapM Text.readNumeral
  return {
    filename := String.ofList (baseName (Text.strip (found.captured .path)))
    function := ((found.captured? .function).map functionName).getD unknownFunction
    line := line
    column := column.map Int.ofNat }

end TraceInquest
