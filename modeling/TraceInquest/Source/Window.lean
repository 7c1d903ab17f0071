import TraceInquest.Source.Declaration
import TraceInquest.Text.Lines
import TraceInquest.Trace.Frame

/-! # The lines around a line

A window shows the lines of a file around a target line, with their numbers and their place
before, at or after the target, and names the function that contains the target.

* **`relevantLines lines target radius`** — the rows of a window; indices count from zero and may
  lie outside the file.
* **`containingFunction lines target`** — the nearest declaration at or above a line.
* **`windowAround content targetLine radius path`** — the window, unless the line is missing. -/

namespace TraceInquest

/-- Where a line stands relative to the target of its window. -/
inductive LineRole where
  | before
  | target
  | after
  deriving DecidableEq, Repr

/-- One line of a window. -/
structure RelevantLine where
  /-- The number of the line, counted from one. -/
  number : Int
  /-- The text of the line. -/
  content : String
  /-- Where it stands relative to the target. -/
  role : LineRole
  deriving DecidableEq, Repr

/-- The lines around a target line. -/
structure ContextWindow where
  /-- The file the lines are from, as it was named. -/
  path : String
  /-- The number of the target line. -/
  targetLine : Int
  /-- The lines, in order. -/
  lines : List RelevantLine
  /-- The function around the target, or `unknownFunction`. -/
  containingFunction : String := unknownFunction
  deriving DecidableEq, Repr

/-- The number of the first line of a window, if it has lines. -/
def ContextWindow.firstLine? (window : ContextWindow) : Option Int :=
  window.lines.head?.map (·.number)

/-- The number of the last line of a window, if it has lines. -/
def ContextWindow.lastLine? (window : ContextWindow) : Option Int :=
  window.lines.getLast?.map (·.number)

/-- The role of the line with an index. -/
def lineRole (target : Int) (index : Nat) : LineRole :=
  if (index : Int) < target then .before
  else if (index : Int) = target then .target
  else .after

/-- The lines whose index is at most `radius` away from that of the target. -/
def relevantLines (lines : List String) (target radius : Int) : List RelevantLine :=
  let first := (target - radius).toNat
  let count := (target + radius + 1).toNat - first
  ((lines.drop first).take count).mapIdx fun offset content =>
    { number := (first + offset + 1 : Nat), content, role := lineRole target (first + offset) }

/-- The nearest declaration in lines that are listed upwards. -/
def nearestDeclaration (linesUpwards : List String) : String :=
  (linesUpwards.findSome? fun line => matchDeclaration? line.toList).getD unknownFunction

/-- The function that contains the line with an index: the nearest declaration at or above it. -/
def containingFunction (lines : List String) (target : Int) : String :=
  nearestDeclaration (lines.take (target + 1).toNat).reverse

/-- The window around a line, unless the content has no such line. -/
def windowAround (content : String) (targetLine radius : Int) (path : String) :
    Option ContextWindow :=
  let lines := Text.contentLines content
  let target := targetLine - 1
  if target < 0 ∨ (lines.length : Int) ≤ target then none
  else some {
    path, targetLine
    lines := relevantLines lines target radius
    containingFunction := containingFunction lines target }

end TraceInquest
