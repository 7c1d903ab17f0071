import TraceInquest.Text.Lines
import TraceInquest.Trace.Rule

/-! # Reading a stack trace

A line is a frame if a layout is found in it; the first layout that is found decides, even if its
numbers are then too long. The other lines of a trace are passed over, so a text without frames
is an empty trace and not an error.

* **`frameOfLine? rules line`** — the frame in one line.
* **`framesOfLines rules lines`** — the frames of some lines, or the first error among them.
* **`parseTrace rules text`** — the frames of a text. -/

namespace TraceInquest

/-- The frame that a line holds, by the first of the rules that is found in it. -/
def frameOfLine? (rules : List TraceRule) (line : List Char) :
    Except Text.NumeralTooLong (Option Frame) :=
  match rules.findSome? fun rule => rule.layout.find? line with
  | some found => (frameOf found).map some
  | none => .ok none

/-- The frames of some lines in their order, or the first error. -/
def framesOfLines (rules : List TraceRule) (lines : List (List Char)) :
    Except Text.NumeralTooLong (List Frame) :=
  (lines.mapM (frameOfLine? rules)).map fun frames => frames.filterMap id

/-- The frames of a text, by the rules in the given order. -/
def parseTrace (rules : List TraceRule) (text : String) :
    Except Text.NumeralTooLong (List Frame) :=
  framesOfLines rules (Text.splitLines text.toList)

end TraceInquest
