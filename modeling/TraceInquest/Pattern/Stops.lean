import TraceInquest.Pattern.Search

/-! # The stops of a pattern

What a pattern means can be said without trying anything: at a cursor it has a list of stops, the
most preferred one first.

* **`Pattern.stops pattern here`** — the stops of a pattern, in the order of preference.
* `attempt_eq_findSome?_stops` — an attempt takes the first stop from which the rest succeeds.
* `isSome_find?_iff` — a pattern is found in a text exactly if it has a stop somewhere in it. -/

namespace TraceInquest.Pattern

variable {ι : Type}

/-- The places up to which a run of accepted characters can go, the nearest first. -/
def runStops (accepts : Char → Bool) (captured : List (ι × List Char × List Char)) :
    Option Char → List Char → List (Cursor ι)
  | previous, [] => [⟨previous, [], captured⟩]
  | previous, c :: rest =>
    ⟨previous, c :: rest, captured⟩ ::
      if accepts c then runStops accepts captured (some c) rest else []

/-- The places behind any number of rounds, but at most `limit`, those behind more rounds first. -/
def repeatStops (body : Cursor ι → List (Cursor ι)) : Nat → Cursor ι → List (Cursor ι)
  | 0, here => [here]
  | limit + 1, here =>
    ((body here).filter fun there => there.rest.length < here.rest.length).flatMap
      (repeatStops body limit) ++ [here]

/-- The places at which a match of the pattern can stop, in the order of preference. -/
def stops : Pattern ι → Cursor ι → List (Cursor ι)
  | .empty, here => [here]
  | .one accepts, here =>
    match here.rest with
    | [] => []
    | c :: rest => if accepts c then [here.advance c rest] else []
  | .append first second, here => (first.stops here).flatMap second.stops
  | .either first second, here => first.stops here ++ second.stops here
  | .span accepts longest ahead, here =>
    let run := (runStops accepts here.captured here.previous here.rest).filter fun stop =>
      ahead.admits stop.rest
    if longest then run.reverse else run
  | .repeated body, here => repeatStops body.stops here.rest.length here
  | .capture label body, here => (body.stops here).map (·.note label here.rest)
  | .atStart, here => if here.previous.isNone then [here] else []
  | .atEnd, here => if here.atEnd then [here] else []
  | .atWordEdge, here => if here.atWordEdge then [here] else []
  | .notAhead body, here => if (body.stops here).isEmpty then [here] else []

/-! ## Attempts take the first stop that works out -/

/-- A search through lists one after the other looks through each in turn. -/
theorem findSome?_flatMap {α β γ : Type} (items : List α) (lists : α → List β)
    (next : β → Option γ) :
    (items.flatMap lists).findSome? next =
      items.findSome? fun item => (lists item).findSome? next := by
  induction items with
  | nil => rfl
  | cons item items ih =>
    simp only [List.flatMap_cons, List.findSome?_append, ih, List.findSome?_cons]
    cases (lists item).findSome? next <;> rfl

/-- A search that passes over some items is a search through the others. -/
theorem findSome?_filter {α β : Type} (items : List α) (keeps : α → Bool)
    (next : α → Option β) :
    (items.filter keeps).findSome? next =
      items.findSome? fun item => if keeps item then next item else none := by
  induction items with
  | nil => rfl
  | cons item items ih =>
    by_cases kept : keeps item = true <;> simp [List.findSome?_cons, kept, ih]

theorem spanShortest_eq (accepts : Char → Bool) (ahead : Ahead)
    (captured : List (ι × List Char × List Char)) (next : Cursor ι → Option (Cursor ι))
    (previous : Option Char) (text : List Char) :
    spanShortest accepts ahead captured next previous text =
      (runStops accepts captured previous text).findSome? (proceed ahead next) := by
  induction text generalizing previous with
  | nil =>
    simp only [spanShortest, runStops, List.findSome?_cons, List.findSome?_nil]
    cases proceed ahead next ⟨previous, [], captured⟩ <;> rfl
  | cons c rest ih =>
    simp only [spanShortest, runStops, List.findSome?_cons, ih]
    cases proceed ahead next ⟨previous, c :: rest, captured⟩ with
    | some stop => rfl
    | none => by_cases taken : accepts c = true <;> simp [taken]

theorem spanLongest_eq (accepts : Char → Bool) (ahead : Ahead)
    (captured : List (ι × List Char × List Char)) (next : Cursor ι → Option (Cursor ι))
    (previous : Option Char) (text : List Char) :
    spanLongest accepts ahead captured next previous text =
      (runStops accepts captured previous text).reverse.findSome? (proceed ahead next) := by
  induction text generalizing previous with
  | nil =>
    simp only [spanLongest, runStops, List.reverse_singleton, List.findSome?_cons,
      List.findSome?_nil]
    cases proceed ahead next ⟨previous, [], captured⟩ <;> rfl
  | cons c rest ih =>
    by_cases taken : accepts c = true
    · simp only [spanLongest, runStops, taken, if_true, ih, List.reverse_cons,
        List.findSome?_append, List.findSome?_cons, List.findSome?_nil]
      cases (runStops accepts captured (some c) rest).reverse.findSome? (proceed ahead next) with
      | some stop => rfl
      | none => cases proceed ahead next ⟨previous, c :: rest, captured⟩ <;> rfl
    · simp only [spanLongest, runStops, taken, if_false, Bool.false_eq_true,
        List.reverse_singleton, List.findSome?_cons, List.findSome?_nil]
      cases proceed ahead next ⟨previous, c :: rest, captured⟩ <;> rfl

theorem repeatThen_eq {body : Cursor ι → (Cursor ι → Option (Cursor ι)) → Option (Cursor ι)}
    {bodyStops : Cursor ι → List (Cursor ι)}
    (h : ∀ here next, body here next = (bodyStops here).findSome? next) (limit : Nat)
    (here : Cursor ι) (next : Cursor ι → Option (Cursor ι)) :
    repeatThen body limit here next = (repeatStops bodyStops limit here).findSome? next := by
  induction limit generalizing here with
  | zero =>
    simp only [repeatThen, repeatStops, List.findSome?_cons, List.findSome?_nil]
    cases next here <;> rfl
  | succ limit ih =>
    simp only [repeatThen, repeatStops, h, ih, List.findSome?_append, findSome?_flatMap,
      findSome?_filter, decide_eq_true_eq, List.findSome?_cons, List.findSome?_nil]
    split
    · rename_i stop found
      simp [found]
    · rename_i failed
      simp only [failed]
      cases next here <;> rfl

/-- An attempt takes the most preferred stop from which the rest succeeds. -/
theorem attempt_eq_findSome?_stops (pattern : Pattern ι) (here : Cursor ι)
    (next : Cursor ι → Option (Cursor ι)) :
    pattern.attempt here next = (pattern.stops here).findSome? next := by
  induction pattern generalizing here next with
  | empty =>
    simp only [attempt, stops, List.findSome?_cons, List.findSome?_nil]
    cases next here <;> rfl
  | one accepts =>
    simp only [attempt, stops]
    cases here.rest with
    | nil => rfl
    | cons c rest =>
      by_cases taken : accepts c = true
      · simp only [taken, if_true, List.findSome?_cons, List.findSome?_nil]
        cases next (here.advance c rest) <;> rfl
      · simp [taken]
  | append first second first_ih second_ih =>
    simp only [attempt, stops, first_ih, second_ih, findSome?_flatMap]
  | either first second first_ih second_ih =>
    simp only [attempt, stops, first_ih, second_ih, List.findSome?_append]
    cases (first.stops here).findSome? next <;> rfl
  | span accepts longest ahead =>
    simp only [attempt, stops]
    cases longest
    · simp only [spanShortest_eq, Bool.false_eq_true, if_false, findSome?_filter]
      rfl
    · simp only [spanLongest_eq, if_true, ← List.filter_reverse, findSome?_filter]
      rfl
  | repeated body ih => exact repeatThen_eq ih _ here next
  | capture label body ih =>
    simp only [attempt, stops, ih, List.findSome?_map]
    rfl
  | atStart | atEnd | atWordEdge =>
    simp only [attempt, stops]
    split
    · simp only [List.findSome?_cons, List.findSome?_nil]
      cases next here <;> rfl
    · rfl
  | notAhead body ih =>
    simp only [attempt, stops, ih]
    cases body.stops here with
    | nil =>
      simp only [List.findSome?_nil, List.isEmpty_nil, if_true, List.findSome?_cons]
      cases next here <;> rfl
    | cons stop others => simp

/-- A pattern that is tried alone takes its most preferred stop. -/
theorem attempt_some (pattern : Pattern ι) (here : Cursor ι) :
    pattern.attempt here some = (pattern.stops here).head? := by
  rw [attempt_eq_findSome?_stops]
  cases pattern.stops here <;> rfl

/-! ## Finding a pattern -/

/-- The cursor in a text behind some characters of it, nothing being captured. -/
def cursorBehind (skipped rest : List Char) : Cursor ι := ⟨skipped.getLast?, rest, []⟩

theorem isSome_findFrom_iff (pattern : Pattern ι) (previous : Option Char) (text : List Char) :
    (pattern.findFrom previous text).isSome = true ↔
      ∃ skipped rest, text = skipped ++ rest ∧
        pattern.stops ⟨skipped.getLast?.or previous, rest, []⟩ ≠ [] := by
  induction text generalizing previous with
  | nil =>
    simp only [findFrom, Option.isSome_map, attempt_some, List.isSome_head?, List.nil_eq,
      List.append_eq_nil_iff]
    constructor
    · exact fun found => ⟨[], [], ⟨rfl, rfl⟩, found⟩
    · rintro ⟨_, _, ⟨rfl, rfl⟩, found⟩
      exact found
  | cons c rest ih =>
    -- the character in front of a place is the last one skipped, or the one in front of them all
    have later : ∀ skipped : List Char,
        (c :: skipped).getLast?.or previous = skipped.getLast?.or (some c) := by
      intro skipped
      cases skipped with
      | nil => rfl
      | cons d skipped => simp [List.getLast?_cons]
    simp only [findFrom, attempt_some]
    cases found : (pattern.stops ⟨previous, c :: rest, []⟩).head? with
    | some stop =>
      simp only [Option.isSome_some, true_iff]
      refine ⟨[], c :: rest, rfl, ?_⟩
      intro empty
      simp only [List.getLast?_nil, Option.none_or] at empty
      simp [empty] at found
    | none =>
      have none_here : pattern.stops ⟨previous, c :: rest, []⟩ = [] := by simpa using found
      simp only [ih]
      constructor
      · rintro ⟨skipped, rest, rfl, stops⟩
        exact ⟨c :: skipped, rest, rfl, by rwa [later]⟩
      · rintro ⟨skipped, others, split, stops⟩
        cases skipped with
        | nil =>
          simp only [List.nil_append] at split
          subst split
          simp [none_here] at stops
        | cons d skipped =>
          simp only [List.cons_append, List.cons.injEq] at split
          obtain ⟨rfl, rfl⟩ := split
          exact ⟨skipped, others, rfl, by rwa [← later]⟩

/-- A pattern is found in a text exactly if it has a stop at some place of the text. -/
theorem isSome_find?_iff (pattern : Pattern ι) (text : List Char) :
    (pattern.find? text).isSome = true ↔
      ∃ skipped rest, text = skipped ++ rest ∧ pattern.stops (cursorBehind skipped rest) ≠ [] := by
  rw [find?_eq_findFrom, isSome_findFrom_iff]
  simp [cursorBehind]

end TraceInquest.Pattern
