import TraceInquest.Proofs.Pattern.Stops

/-! # What is kept on the way to a stop

A pattern gets from a place to a stop in two kinds of moves: it takes characters, one after the
other, and it notes what a capture has taken. A relation between cursors that can be chained and
that holds of both moves holds between a place and each stop.

* **`Pattern.captureBodies`** — the captures of a pattern, each with its label and its body.
* **`Cursor.IsKept keeps`** — the relation can be chained and holds of taking a character.
* **`IsKept.of_mem_stops`** — if it also holds of what a pattern notes, it holds of its stops. -/

namespace TraceInquest

variable {ι : Type}

/-! ## The captures of a pattern -/

namespace Pattern

/-- The captures of a pattern, each with its label and its body. What a look-ahead captures is not
kept. -/
def captureBodies : Pattern ι → List (ι × Pattern ι)
  | .append first second | .either first second => first.captureBodies ++ second.captureBodies
  | .repeated body => body.captureBodies
  | .capture label body => (label, body) :: body.captureBodies
  | _ => []

@[simp] theorem captureBodies_capture (label : ι) (body : Pattern ι) :
    (capture label body).captureBodies = (label, body) :: body.captureBodies := rfl

@[simp] theorem captureBodies_many1 (accepts : Char → Bool) :
    (many1 accepts : Pattern ι).captureBodies = [] := rfl

@[simp] theorem captureBodies_few1 (accepts : Char → Bool) :
    (few1 accepts : Pattern ι).captureBodies = [] := rfl

@[simp] theorem captureBodies_among (chars : String) :
    (among chars : Pattern ι).captureBodies = [] := rfl

@[simp] theorem captureBodies_optional (body : Pattern ι) :
    (optional body).captureBodies = body.captureBodies := List.append_nil _

@[simp] theorem captureBodies_many (accepts : Char → Bool) :
    (many accepts : Pattern ι).captureBodies = [] := rfl

/-- The captures of a sequence are those of its parts. -/
@[simp] theorem captureBodies_seq (parts : List (Pattern ι)) :
    (seq parts).captureBodies = parts.flatMap captureBodies := by
  induction parts with
  | nil => rfl
  | cons part parts ih =>
    rw [List.flatMap_cons, ← ih]
    rfl

@[simp] theorem captureBodies_literal (text : String) :
    (literal text : Pattern ι).captureBodies = [] := by
  rw [literal, captureBodies_seq, List.flatMap_map, List.flatMap_eq_nil_iff]
  exact fun c _ => rfl

@[simp] theorem captureBodies_words (texts : List String) :
    (words texts : Pattern ι).captureBodies = [] := by
  rw [words]
  induction texts with
  | nil => rfl
  | cons first others ih =>
    cases others with
    | nil => exact captureBodies_literal first
    | cons second others =>
      exact List.append_eq_nil_iff.mpr ⟨captureBodies_literal first, ih⟩

end Pattern

/-! ## Kept relations -/

/-- Whether a relation between cursors can be chained and holds of taking a character. -/
structure Cursor.IsKept (keeps : Cursor ι → Cursor ι → Prop) : Prop where
  refl : ∀ here, keeps here here
  trans : ∀ {here middle stop}, keeps here middle → keeps middle stop → keeps here stop
  advance : ∀ {here : Cursor ι} {c : Char} {rest : List Char}, here.rest = c :: rest →
    keeps here (here.advance c rest)

namespace Cursor.IsKept

open Pattern

variable {keeps : Cursor ι → Cursor ι → Prop} {here stop : Cursor ι}

theorem of_mem_runStops (kept : IsKept keeps) {accepts : Char → Bool}
    {captured : List (ι × List Char × List Char)} {previous : Option Char} {text : List Char}
    (mem : stop ∈ runStops accepts captured previous text) :
    keeps ⟨previous, text, captured⟩ stop := by
  induction text generalizing previous with
  | nil =>
    rw [runStops, List.mem_singleton] at mem
    rw [mem]
    exact kept.refl _
  | cons c rest ih =>
    rw [runStops, List.mem_cons] at mem
    rcases mem with rfl | mem
    · exact kept.refl _
    · split at mem
      · exact kept.trans (kept.advance rfl) (ih mem)
      · cases mem

/-- What one round keeps, any number of rounds keeps. -/
theorem of_mem_repeatStops (kept : IsKept keeps) {body : Cursor ι → List (Cursor ι)}
    (round : ∀ here, ∀ stop ∈ body here, keeps here stop) {limit : Nat}
    (mem : stop ∈ repeatStops body limit here) : keeps here stop := by
  induction limit generalizing here with
  | zero =>
    rw [repeatStops, List.mem_singleton] at mem
    rw [mem]
    exact kept.refl _
  | succ limit ih =>
    rw [repeatStops, List.mem_append, List.mem_flatMap, List.mem_singleton] at mem
    -- one round and then the others, or no round at all
    rcases mem with ⟨middle, middle_mem, mem⟩ | rfl
    · exact kept.trans (round here middle (List.mem_filter.mp middle_mem).1) (ih mem)
    · exact kept.refl _

/-- A relation that also holds of what the captures of a pattern note holds between a place and each
stop of the pattern. -/
theorem of_mem_stops (kept : IsKept keeps) {pattern : Pattern ι}
    (notes : ∀ capture ∈ pattern.captureBodies, ∀ here, ∀ inner ∈ capture.2.stops here,
      keeps here inner → keeps here (inner.note capture.1 here.rest))
    (mem : stop ∈ pattern.stops here) : keeps here stop := by
  induction pattern generalizing here stop with
  | empty =>
    obtain rfl := List.mem_singleton.mp mem
    exact kept.refl _
  | one accepts =>
    obtain ⟨c, rest, text, -, rfl⟩ := mem_stops_one.mp mem
    exact kept.advance text
  | append first second first_ih second_ih =>
    obtain ⟨middle, middle_mem, mem⟩ := List.mem_flatMap.mp mem
    exact kept.trans
      (first_ih (fun capture noted => notes capture (List.mem_append_left _ noted)) middle_mem)
      (second_ih (fun capture noted => notes capture (List.mem_append_right _ noted)) mem)
  | either first second first_ih second_ih =>
    rcases List.mem_append.mp mem with mem | mem
    · exact first_ih (fun capture noted => notes capture (List.mem_append_left _ noted)) mem
    · exact second_ih (fun capture noted => notes capture (List.mem_append_right _ noted)) mem
  | span accepts longest ahead => exact kept.of_mem_runStops (mem_stops_span_ahead.mp mem).1
  | repeated body ih => exact kept.of_mem_repeatStops (fun _ _ => ih notes) mem
  | capture label body ih =>
    obtain ⟨inner, inner_mem, rfl⟩ := mem_stops_capture.mp mem
    -- the body keeps the relation, and so does the note on what it has taken
    have inside := ih (fun capture noted => notes capture (List.mem_cons_of_mem _ noted)) inner_mem
    exact notes (label, body) List.mem_cons_self here inner inner_mem inside
  | atStart =>
    obtain ⟨-, rfl⟩ := mem_stops_atStart.mp mem
    exact kept.refl _
  | atEnd =>
    obtain ⟨-, rfl⟩ := mem_stops_atEnd.mp mem
    exact kept.refl _
  | atWordEdge =>
    obtain ⟨-, rfl⟩ := mem_stops_atWordEdge.mp mem
    exact kept.refl _
  | notAhead body _ =>
    obtain ⟨-, rfl⟩ := mem_stops_notAhead.mp mem
    exact kept.refl _

end Cursor.IsKept

end TraceInquest
