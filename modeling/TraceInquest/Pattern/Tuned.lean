import TraceInquest.Pattern.Basic

/-! # Patterns that look ahead

A run of characters can stop at many places, and at most of them the next character already shows
that what comes after the run cannot be matched there. A tuned pattern passes over such stops
before it tries anything behind them, which changes nothing but the time that a search takes.

* **`Pattern.firsts pattern after`** — what the next character has to be where the pattern is
  matched in front of a text that starts as `after` says.
* **`Pattern.tuned pattern after`** — the pattern whose runs look ahead.
* `attempt_tuned` — tuning changes no match. -/

namespace TraceInquest.Pattern

variable {ι : Type}

/-- What is known about a text where the pattern is matched and followed by a text that starts as
`after` says. -/
def firsts : Pattern ι → Ahead → Ahead
  | .empty, after => after
  | .one accepts, _ => some accepts
  | .append first second, after => first.firsts (second.firsts after)
  | .either first second, after => (first.firsts after).or (second.firsts after)
  | .span accepts _ ahead, after => Ahead.or (some accepts) (ahead.and after)
  | .repeated body, after => (body.firsts none).or after
  | .capture _ body, after => body.firsts after
  | .atStart, after => after
  | .atEnd, after => after
  | .atWordEdge, after => after
  | .notAhead _, after => after

/-- The pattern for use in front of texts that start as `after` says: its runs stop only where
what comes after them can be matched, as far as one character shows that. -/
def tuned : Pattern ι → Ahead → Pattern ι
  | .append first second, after => .append (first.tuned (second.firsts after)) (second.tuned after)
  | .either first second, after => .either (first.tuned after) (second.tuned after)
  | .span accepts longest ahead, after => .span accepts longest (ahead.and after)
  | .repeated body, _ => .repeated (body.tuned none)
  | .capture label body, after => .capture label (body.tuned after)
  | .notAhead body, _ => .notAhead (body.tuned none)
  | pattern, _ => pattern

/-! ## Tuning changes no match -/

/-- What is known foresees the success of `next`: every text from which `next` succeeds starts
so. -/
def Foresees (after : Ahead) (next : Cursor ι → Option (Cursor ι)) : Prop :=
  ∀ here, (next here).isSome = true → after.admits here.rest = true

theorem foresees_none (next : Cursor ι → Option (Cursor ι)) : Foresees none next :=
  fun _ _ => Ahead.admits_none _

theorem Foresees.note {after : Ahead} {next : Cursor ι → Option (Cursor ι)}
    (h : Foresees after next) (label : ι) (start : List Char) :
    Foresees after fun stop => next (stop.note label start) :=
  fun stop success => h (stop.note label start) success

theorem Foresees.proceed_and {after : Ahead} {next : Cursor ι → Option (Cursor ι)}
    (h : Foresees after next) (ahead : Ahead) :
    proceed (ahead.and after) next = proceed ahead next := by
  funext here
  unfold proceed
  by_cases hopeful : after.admits here.rest = true
  · simp [hopeful]
  · have : next here = none := by
      cases result : next here with
      | none => rfl
      | some stop => exact absurd (h here (by simp [result])) hopeful
    simp [this]

theorem Foresees.proceed {after : Ahead} {next : Cursor ι → Option (Cursor ι)}
    (h : Foresees after next) (ahead : Ahead) :
    Foresees (ahead.and after) (proceed ahead next) := by
  intro here success
  unfold Pattern.proceed at success
  split at success
  · rename_i admitted
    simp [admitted, h here success]
  · simp at success

theorem Foresees.spanShortest {after : Ahead} {next : Cursor ι → Option (Cursor ι)}
    (h : Foresees after next) (accepts : Char → Bool) (ahead : Ahead)
    (captured : List (ι × List Char × List Char)) (previous : Option Char) (text : List Char) :
    spanShortest accepts (ahead.and after) captured next previous text =
      spanShortest accepts ahead captured next previous text := by
  induction text generalizing previous with
  | nil => simp [Pattern.spanShortest, h.proceed_and]
  | cons c rest ih => simp [Pattern.spanShortest, h.proceed_and, ih]

theorem Foresees.spanLongest {after : Ahead} {next : Cursor ι → Option (Cursor ι)}
    (h : Foresees after next) (accepts : Char → Bool) (ahead : Ahead)
    (captured : List (ι × List Char × List Char)) (previous : Option Char) (text : List Char) :
    spanLongest accepts (ahead.and after) captured next previous text =
      spanLongest accepts ahead captured next previous text := by
  induction text generalizing previous with
  | nil => simp [Pattern.spanLongest, h.proceed_and]
  | cons c rest ih => simp [Pattern.spanLongest, h.proceed_and, ih]

/-- A run that leads to success takes the first character or stops at once. -/
theorem Foresees.span {after : Ahead} {next : Cursor ι → Option (Cursor ι)}
    (h : Foresees after next) (accepts : Char → Bool) (longest : Bool) (ahead : Ahead) :
    Foresees ((Pattern.span accepts longest ahead : Pattern ι).firsts after)
      fun here => (Pattern.span accepts longest ahead).attempt here next := by
  intro here success
  apply Ahead.admits_or
  obtain ⟨previous, text, captured⟩ := here
  have stopped : ∀ text, (Pattern.proceed ahead next ⟨previous, text, captured⟩).isSome = true →
      (ahead.and after).admits text = true :=
    fun text stops => h.proceed ahead ⟨previous, text, captured⟩ stops
  cases text with
  | nil => cases longest <;> exact .inr (stopped [] success)
  | cons c rest =>
    by_cases taken : accepts c = true
    · exact .inl taken
    · right
      apply stopped
      cases longest
      · simp only [attempt, Bool.false_eq_true, if_false, Pattern.spanShortest, taken] at success
        split at success
        · rename_i stop found
          simp [found]
        · simp at success
      · simpa [attempt, Pattern.spanLongest, taken] using success

/-- The first character behind a place shows whether a pattern could be matched there. -/
theorem Foresees.attempt {after : Ahead} {next : Cursor ι → Option (Cursor ι)}
    (h : Foresees after next) (pattern : Pattern ι) :
    Foresees (pattern.firsts after) fun here => pattern.attempt here next := by
  induction pattern generalizing after next with
  | empty => exact h
  | one accepts =>
    intro here success
    simp only [Pattern.attempt] at success
    split at success
    · simp at success
    · rename_i c rest text
      rw [text]
      by_cases taken : accepts c = true
      · exact taken
      · simp [taken] at success
  | append first second first_ih second_ih => exact first_ih (second_ih h)
  | either first second first_ih second_ih =>
    intro here success
    apply Ahead.admits_or
    simp only [Pattern.attempt] at success
    split at success
    · rename_i stop found
      exact .inl (first_ih h here (by simp [found]))
    · exact .inr (second_ih h here success)
  | span accepts longest ahead => exact h.span accepts longest ahead
  | repeated body ih =>
    intro here success
    apply Ahead.admits_or
    simp only [Pattern.attempt] at success
    -- a repetition begins with a round, or with what comes behind it
    cases count : here.rest.length with
    | zero => exact .inr (h here (by simpa [count, repeatThen] using success))
    | succ limit =>
      rw [count, repeatThen] at success
      split at success
      · rename_i stop found
        exact .inl (ih (foresees_none _) here (Option.isSome_iff_exists.2 ⟨stop, found⟩))
      · exact .inr (h here success)
  | capture label body ih => exact fun here success => ih (h.note label here.rest) here success
  | atStart | atEnd | atWordEdge =>
    intro here success
    simp only [Pattern.attempt] at success
    split at success
    · exact h here success
    · simp at success
  | notAhead body _ =>
    intro here success
    simp only [Pattern.attempt] at success
    split at success
    · simp at success
    · exact h here success

/-- Tuning changes no match in front of the texts for which a pattern is tuned. -/
theorem Foresees.attempt_tuned {after : Ahead} {next : Cursor ι → Option (Cursor ι)}
    (h : Foresees after next) (pattern : Pattern ι) (here : Cursor ι) :
    (pattern.tuned after).attempt here next = pattern.attempt here next := by
  induction pattern generalizing after next here with
  | empty | one | atStart | atEnd | atWordEdge => rfl
  | append first second first_ih second_ih =>
    have behind : (fun middle => (second.tuned after).attempt middle next) =
        fun middle => second.attempt middle next := funext fun middle => second_ih h middle
    simp only [tuned, Pattern.attempt, behind]
    exact first_ih (h.attempt second) here
  | either first second first_ih second_ih =>
    simp only [tuned, Pattern.attempt, first_ih h, second_ih h]
  | span accepts longest ahead =>
    simp only [tuned, Pattern.attempt, h.spanLongest, h.spanShortest]
  | repeated body ih =>
    have round : (body.tuned none).attempt = body.attempt :=
      funext fun here => funext fun next => ih (foresees_none next) here
    simp only [tuned, Pattern.attempt, round]
  | capture label body ih =>
    simp only [tuned, Pattern.attempt, ih (h.note label here.rest)]
  | notAhead body ih => simp only [tuned, Pattern.attempt, ih (foresees_none _)]

/-- Tuning changes no match. -/
@[simp] theorem attempt_tuned (pattern : Pattern ι) (here : Cursor ι)
    (next : Cursor ι → Option (Cursor ι)) :
    (pattern.tuned none).attempt here next = pattern.attempt here next :=
  (foresees_none next).attempt_tuned pattern here

end TraceInquest.Pattern
