/-! # Frames of a stack trace

* **`Frame`** — one line of a stack trace: a file name, a function, a line and maybe a column.
* **`unknownFunction`** — the name that stands for a function nobody has named. -/

namespace TraceInquest

/-- The name that stands for a function that is not known. -/
def unknownFunction : String := "<unknown>"

/-- One place in a program that a stack trace names. -/
structure Frame where
  /-- The name of the file, without directories. -/
  filename : String
  /-- The function, or `unknownFunction`. -/
  function : String := unknownFunction
  /-- The line, counted from one. -/
  line : Int
  /-- The column, where the trace gives one. -/
  column : Option Int := none
  deriving DecidableEq, Repr

/-- Whether the function of the frame is known. -/
def Frame.hasFunction (frame : Frame) : Bool := frame.function != unknownFunction

end TraceInquest
