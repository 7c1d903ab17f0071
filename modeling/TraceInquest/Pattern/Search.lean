import TraceInquest.Pattern.Tuned

/-! # Searching a text for a pattern

A pattern is found at the leftmost place where it can be matched, and there at its most preferred
stop. Further finds start where the last one stopped.

* **`Pattern.find? pattern text`** — the first find.
* **`Pattern.matchStart? pattern text`** — the match at the start of a text.
* **`Pattern.findAll pattern text`** — all finds, from left to right, none overlapping another.
* **`Found.captured? label`** — the text last captured under a label. -/

namespace TraceInquest

/-- A place in a text where a pattern was found. -/
structure Found (ι : Type) where
  /-- The text from where the find starts. -/
  start : List Char
  /-- Where it stops. -/
  stop : Cursor ι

/-- The text between a place and a later one, each given by the text after it. -/
def textBetween (start stop : List Char) : List Char := start.take (start.length - stop.length)

@[simp] theorem textBetween_append (text rest : List Char) :
    textBetween (text ++ rest) rest = text := by
  simp [textBetween]

namespace Found

variable {ι : Type}

/-- The text that was found. -/
def text (found : Found ι) : List Char := textBetween found.start found.stop.rest

/-- The text last captured under a label. -/
def captured? [BEq ι] (found : Found ι) (label : ι) : Option (List Char) :=
  (found.stop.captured.find? fun capture => capture.1 == label).map fun capture =>
    textBetween capture.2.1 capture.2.2

/-- The text last captured under a label, or the empty text. -/
def captured [BEq ι] (found : Found ι) (label : ι) : List Char :=
  (found.captured? label).getD []

end Found

namespace Pattern

variable {ι : Type}

/-- The match at the very start of a text, if there is one. -/
def matchStart? (pattern : Pattern ι) (text : List Char) : Option (Found ι) :=
  (pattern.attempt ⟨none, text, []⟩ some).map (⟨text, ·⟩)

/-- The first find in a text that has `previous` before it. -/
def findFrom (pattern : Pattern ι) : Option Char → List Char → Option (Found ι)
  | previous, [] => (pattern.attempt ⟨previous, [], []⟩ some).map (⟨[], ·⟩)
  | previous, c :: rest =>
    match pattern.attempt ⟨previous, c :: rest, []⟩ some with
    | some stop => some ⟨c :: rest, stop⟩
    | none => findFrom pattern (some c) rest

@[simp] theorem findFrom_tuned (pattern : Pattern ι) (previous : Option Char)
    (text : List Char) : (pattern.tuned none).findFrom previous text =
      pattern.findFrom previous text := by
  induction text generalizing previous with
  | nil => simp [findFrom]
  | cons c rest ih => simp [findFrom, ih]

/-- The first find in a text. -/
def find? (pattern : Pattern ι) (text : List Char) : Option (Found ι) :=
  (pattern.tuned none).findFrom none text

theorem find?_eq_findFrom (pattern : Pattern ι) (text : List Char) :
    pattern.find? text = pattern.findFrom none text :=
  pattern.findFrom_tuned none text

/-- Whether the pattern is found anywhere in a text. -/
def isFoundIn (pattern : Pattern ι) (text : List Char) : Bool := (pattern.find? text).isSome

/-- All finds in a text that has `previous` before it. A find that takes no character is passed
over together with the character behind it. -/
def findAllFrom (pattern : Pattern ι) (previous : Option Char) (text : List Char) :
    List (Found ι) :=
  match pattern.attempt ⟨previous, text, []⟩ some with
  | some stop =>
    if stop.rest.length < text.length then
      ⟨text, stop⟩ :: pattern.findAllFrom stop.previous stop.rest
    else
      match text with
      | [] => [⟨text, stop⟩]
      | c :: rest => ⟨c :: rest, stop⟩ :: pattern.findAllFrom (some c) rest
  | none =>
    match text with
    | [] => []
    | c :: rest => pattern.findAllFrom (some c) rest
  termination_by text.length

theorem findAllFrom_tuned (pattern : Pattern ι) (previous : Option Char) (text : List Char) :
    (pattern.tuned none).findAllFrom previous text = pattern.findAllFrom previous text := by
  fun_induction pattern.findAllFrom previous text <;>
    rw [findAllFrom.eq_def, attempt_tuned] <;> grind

/-- All finds in a text. -/
def findAll (pattern : Pattern ι) (text : List Char) : List (Found ι) :=
  (pattern.tuned none).findAllFrom none text

theorem findAll_eq_findAllFrom (pattern : Pattern ι) (text : List Char) :
    pattern.findAll text = pattern.findAllFrom none text :=
  pattern.findAllFrom_tuned none text

end Pattern

end TraceInquest
