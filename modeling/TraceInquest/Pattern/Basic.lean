import TraceInquest.Pattern.Ahead
import TraceInquest.Text.Alphanumeric

/-! # Text patterns

A pattern describes the beginnings of a text. It is tried at a cursor, which knows the character
before it and the text after it, and it can stop at several places; these come in an order of
preference, and the first one from which the rest of the work succeeds is taken.

* **`Pattern`** — single characters, sequence, ordered choice, runs of characters (longest or
  shortest first), repetition, labelled captures, anchors and negative look-ahead.
* **`Pattern.attempt pattern here next`** — the first preferred stop from which `next` succeeds.
* **`Pattern.seq`**, `literal`, `optional`, `many1`, … — the vocabulary patterns are written in. -/

namespace TraceInquest

/-- A place in a text: the character before it, the text after it, and what has been captured on
the way to it, last capture first. A capture is the text after its start and after its stop. -/
structure Cursor (ι : Type) where
  /-- The character before the cursor, if any. -/
  previous : Option Char
  /-- The text after the cursor. -/
  rest : List Char
  /-- The captures made so far, the last one first. -/
  captured : List (ι × List Char × List Char)

namespace Cursor

variable {ι : Type}

/-- The cursor behind the character `c`, in front of `rest`. -/
def advance (here : Cursor ι) (c : Char) (rest : List Char) : Cursor ι :=
  { here with previous := some c, rest := rest }

/-- The cursor with one more capture, which starts in front of `start` and stops here. -/
def note (here : Cursor ι) (label : ι) (start : List Char) : Cursor ι :=
  { here with captured := (label, start, here.rest) :: here.captured }

/-- Whether the cursor stands at the edge of a word. -/
def atWordEdge (here : Cursor ι) : Bool :=
  here.previous.any Text.isWordChar != here.rest.head?.any Text.isWordChar

/-- Whether the cursor stands at the end of the text or in front of a line feed that ends it. -/
def atEnd (here : Cursor ι) : Bool :=
  match here.rest with
  | [] => true
  | [c] => c == '\n'
  | _ => false

end Cursor

/-- A description of beginnings of texts, with captures labelled by `ι`. -/
inductive Pattern (ι : Type) where
  /-- Nothing at all. -/
  | empty
  /-- One character that is accepted. -/
  | one (accepts : Char → Bool)
  /-- The first pattern, then the second. -/
  | append (first second : Pattern ι)
  /-- The first pattern or, less preferred, the second. -/
  | either (first second : Pattern ι)
  /-- Any number of accepted characters, as many or as few as possible, up to a place from where
  the text may start as it does. -/
  | span (accepts : Char → Bool) (longest : Bool) (ahead : Ahead)
  /-- The body any number of times, as often as possible; each time takes a character. -/
  | repeated (body : Pattern ι)
  /-- The body, whose text is captured. -/
  | capture (label : ι) (body : Pattern ι)
  /-- Nothing, at the start of the text. -/
  | atStart
  /-- Nothing, at the end of the text or in front of a line feed that ends it. -/
  | atEnd
  /-- Nothing, at the edge of a word. -/
  | atWordEdge
  /-- Nothing, where the body does not match. -/
  | notAhead (body : Pattern ι)

namespace Pattern

variable {ι : Type}

/-! ## Trying a pattern -/

/-- What `next` makes of a cursor whose text may start as it does. -/
@[inline] def proceed (ahead : Ahead) (next : Cursor ι → Option (Cursor ι)) (here : Cursor ι) :
    Option (Cursor ι) :=
  if ahead.admits here.rest then next here else none

@[simp] theorem proceed_none (next : Cursor ι → Option (Cursor ι)) : proceed none next = next := by
  funext here
  simp [proceed]

/-- Takes as few accepted characters as possible such that `next` succeeds behind them. -/
def spanShortest (accepts : Char → Bool) (ahead : Ahead)
    (captured : List (ι × List Char × List Char)) (next : Cursor ι → Option (Cursor ι)) :
    Option Char → List Char → Option (Cursor ι)
  | previous, [] => proceed ahead next ⟨previous, [], captured⟩
  | previous, c :: rest =>
    match proceed ahead next ⟨previous, c :: rest, captured⟩ with
    | some stop => some stop
    | none =>
      if accepts c then spanShortest accepts ahead captured next (some c) rest else none

/-- Takes as many accepted characters as possible such that `next` succeeds behind them. -/
def spanLongest (accepts : Char → Bool) (ahead : Ahead)
    (captured : List (ι × List Char × List Char)) (next : Cursor ι → Option (Cursor ι)) :
    Option Char → List Char → Option (Cursor ι)
  | previous, [] => proceed ahead next ⟨previous, [], captured⟩
  | previous, c :: rest =>
    if accepts c then
      match spanLongest accepts ahead captured next (some c) rest with
      | some stop => some stop
      | none => proceed ahead next ⟨previous, c :: rest, captured⟩
    else proceed ahead next ⟨previous, c :: rest, captured⟩

/-- Takes the body as often as possible, but at most `limit` times, such that `next` succeeds
behind it; a round that takes no character does not count. -/
def repeatThen (body : Cursor ι → (Cursor ι → Option (Cursor ι)) → Option (Cursor ι)) :
    Nat → Cursor ι → (Cursor ι → Option (Cursor ι)) → Option (Cursor ι)
  | 0, here, next => next here
  | limit + 1, here, next =>
    match body here fun there =>
        if there.rest.length < here.rest.length then repeatThen body limit there next
        else none with
    | some stop => some stop
    | none => next here

/-- What `next` makes of the most preferred stop of the pattern from which it succeeds. -/
def attempt : Pattern ι → Cursor ι → (Cursor ι → Option (Cursor ι)) → Option (Cursor ι)
  | .empty, here, next => next here
  | .one accepts, here, next =>
    match here.rest with
    | [] => none
    | c :: rest => if accepts c then next (here.advance c rest) else none
  | .append first second, here, next =>
    first.attempt here fun middle => second.attempt middle next
  | .either first second, here, next =>
    match first.attempt here next with
    | some stop => some stop
    | none => second.attempt here next
  | .span accepts longest ahead, here, next =>
    if longest then spanLongest accepts ahead here.captured next here.previous here.rest
    else spanShortest accepts ahead here.captured next here.previous here.rest
  | .repeated body, here, next => repeatThen body.attempt here.rest.length here next
  | .capture label body, here, next =>
    body.attempt here fun stop => next (stop.note label here.rest)
  | .atStart, here, next => if here.previous.isNone then next here else none
  | .atEnd, here, next => if here.atEnd then next here else none
  | .atWordEdge, here, next => if here.atWordEdge then next here else none
  | .notAhead body, here, next =>
    match body.attempt here some with
    | some _ => none
    | none => next here

/-! ## Vocabulary -/

/-- The patterns one after the other. -/
def seq (parts : List (Pattern ι)) : Pattern ι := parts.foldr append empty

/-- The first of the patterns that works out, in their order. -/
def oneOf : List (Pattern ι) → Pattern ι
  | [] => notAhead empty
  | [last] => last
  | first :: rest => either first (oneOf rest)

/-- One particular character. -/
def char (c : Char) : Pattern ι := one (· == c)

/-- One of some characters. -/
def among (chars : String) : Pattern ι := one (chars.toList.contains ·)

/-- One particular text. -/
def literal (text : String) : Pattern ι := seq (text.toList.map char)

instance : Coe String (Pattern ι) := ⟨literal⟩

/-- One of some particular texts. -/
def words (texts : List String) : Pattern ι := oneOf (texts.map literal)

/-- The pattern, if it works out, or nothing. -/
def optional (body : Pattern ι) : Pattern ι := either body empty

/-- Any number of accepted characters, as many as possible. -/
def many (accepts : Char → Bool) : Pattern ι := span accepts true none

/-- Accepted characters, at least one and as many as possible. -/
def many1 (accepts : Char → Bool) : Pattern ι := append (one accepts) (span accepts true none)

/-- Accepted characters, at least one and as few as possible. -/
def few1 (accepts : Char → Bool) : Pattern ι := append (one accepts) (span accepts false none)

/-- Accepted characters, as few as possible. -/
def few (accepts : Char → Bool) : Pattern ι := span accepts false none

end Pattern

end TraceInquest
