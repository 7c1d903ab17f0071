/-! # What is known about the start of a text

* **`Ahead`** — a test that the first character of a text has to pass, or nothing.
* **`Ahead.admits ahead text`** — whether a text may start as it does. -/

namespace TraceInquest

/-- What is known about the start of a text: a test that its first character has to pass, or
nothing. -/
abbrev Ahead := Option (Char → Bool)

namespace Ahead

/-- Whether a text may start as it does. -/
@[inline] def admits : Ahead → List Char → Bool
  | none, _ => true
  | some _, [] => false
  | some accepts, c :: _ => accepts c

/-- What is known if one of two things is. -/
def or : Ahead → Ahead → Ahead
  | some first, some second => some fun c => first c || second c
  | _, _ => none

/-- What is known if both of two things are. -/
def and : Ahead → Ahead → Ahead
  | some first, some second => some fun c => first c && second c
  | none, second => second
  | first, none => first

@[simp] theorem admits_none (text : List Char) : admits none text = true := by
  cases text <;> rfl

theorem admits_or (first second : Ahead) (text : List Char)
    (h : first.admits text = true ∨ second.admits text = true) :
    (first.or second).admits text = true := by
  cases first <;> cases second <;> cases text <;> simp_all [or, admits]

@[simp] theorem admits_and (first second : Ahead) (text : List Char) :
    (first.and second).admits text = (first.admits text && second.admits text) := by
  cases first <;> cases second <;> cases text <;> simp [and, admits]

end Ahead

end TraceInquest
