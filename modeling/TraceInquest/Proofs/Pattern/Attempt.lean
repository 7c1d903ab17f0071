import TraceInquest.Proofs.Pattern.Language

/-! # How an attempt goes

An attempt at a place takes the text apart from the left: a known text is taken as it is, a longest
run up to where it has to end, and a shortest run up to the first place from where the rest of the
work succeeds. A repetition takes one round after the other.

* **`attempt_literal`**, **`attempt_many1`**, **`attempt_few1`** — the steps of an attempt.
* **`attempt_repeated_of_some`** — one more round of a repetition.
* **`find?_eq_some`**, **`find?_seq_literal_eq_some`** — the find at the first place where the
  attempt succeeds. -/

namespace TraceInquest

variable {ι : Type}

namespace Pattern

variable {here : Cursor ι} {next : Cursor ι → Option (Cursor ι)} {stop : Cursor ι}
  {accepts : Char → Bool}

/-! ## The steps of an attempt -/

theorem attempt_seq_nil : (seq []).attempt here next = next here := rfl

theorem attempt_seq_cons {part : Pattern ι} {parts : List (Pattern ι)} :
    (seq (part :: parts)).attempt here next =
      part.attempt here fun middle => (seq parts).attempt middle next := rfl

theorem attempt_capture {label : ι} {body : Pattern ι} :
    (capture label body).attempt here next =
      body.attempt here fun stop => next (stop.note label here.rest) := rfl

theorem attempt_atStart (start : here.previous = none) :
    (atStart : Pattern ι).attempt here next = next here := by
  rw [attempt, start]
  rfl

theorem attempt_atWordEdge (edge : here.atWordEdge = true) :
    (atWordEdge : Pattern ι).attempt here next = next here := by
  rw [attempt, if_pos edge]

theorem attempt_notAhead {body : Pattern ι} (absent : body.stops here = []) :
    (notAhead body).attempt here next = next here := by
  rw [attempt, attempt_some, absent]
  rfl

theorem attempt_one {c : Char} {rest : List Char} (text : here.rest = c :: rest)
    (accepted : accepts c = true) : (one accepts).attempt here next = next (here.behind [c] rest) := by
  rw [attempt, text]
  simp only [accepted, if_true]
  rfl

/-- A known text is taken as it is. -/
theorem attempt_literal (text : String) (rest : List Char)
    (starts : here.rest = text.toList ++ rest) :
    (literal text).attempt here next = next (here.behind text.toList rest) := by
  rw [literal]
  generalize text.toList = chars at starts ⊢
  induction chars generalizing here with
  | nil =>
    rw [List.map_nil, attempt_seq_nil, ← here.behind_nil, starts]
    rfl
  | cons c chars ih =>
    rw [List.map_cons, attempt_seq_cons, char, attempt_one starts (by exact beq_self_eq_true c),
      ih rfl, Cursor.behind_behind]
    rfl

/-- A known text cannot be taken where another character stands. -/
theorem attempt_literal_cons_eq_none {text : String} {c : Char} {parts : List (Pattern ι)}
    (starts : text.toList.head? = some c) (refused : here.rest.head? ≠ some c) :
    (seq (literal text :: parts)).attempt here next = none := by
  refine attempt_eq_none fun taken stop here_eq spelled => ?_
  obtain ⟨first, others, first_spelled, -, rfl⟩ := spells_seq_cons.mp spelled
  rw [spells_literal.mp first_spelled] at here_eq
  refine absurd ?_ refused
  rw [here_eq, List.append_assoc, List.head?_append, starts, Option.some_or]

theorem attempt_either_of_some {first second : Pattern ι}
    (succeeds : first.attempt here next = some stop) :
    (either first second).attempt here next = some stop := by
  rw [attempt, succeeds]

theorem attempt_either_of_none {first second : Pattern ι} (fails : first.attempt here next = none) :
    (either first second).attempt here next = second.attempt here next := by
  rw [attempt, fails]

/-- Of some words the one is taken with which the text starts. -/
theorem attempt_words {texts : List String} {word : String} (rest : List Char)
    (mem : word ∈ texts) (starts : here.rest = word.toList ++ rest)
    (only : ∀ other ∈ texts, other.toList <+: here.rest → other = word)
    (ends : next (here.behind word.toList rest) = some stop) :
    (words texts).attempt here next = some stop := by
  have taken : (literal word).attempt here next = some stop := by
    rw [attempt_literal word rest starts]
    exact ends
  rw [words]
  induction texts with
  | nil => exact absurd mem List.not_mem_nil
  | cons first others ih =>
    cases others with
    | nil =>
      rw [List.mem_singleton] at mem
      rw [List.map_singleton, oneOf, ← mem]
      exact taken
    | cons second others =>
      rw [List.map_cons, List.map_cons, oneOf, ← List.map_cons]
      · -- a word in front of the right one is passed over, since the text does not start with it
        by_cases same : first = word
        · rw [same]
          exact attempt_either_of_some taken
        · have fails : (literal first).attempt here next = none := by
            refine attempt_eq_none fun text stop here_eq spelled => ?_
            refine absurd (only first List.mem_cons_self ?_) same
            rw [here_eq, spells_literal.mp spelled]
            exact List.prefix_append _ _
          have later : word ∈ second :: others := by
            rcases List.mem_cons.mp mem with rfl | later
            · exact absurd rfl same
            · exact later
          rw [attempt_either_of_none fails]
          exact ih later fun other other_mem => only other (List.mem_cons_of_mem first other_mem)
      · simp

/-! ## Longest runs -/

theorem attempt_longest_nil (text : here.rest = []) :
    (span accepts true none).attempt here next = next here := by
  obtain ⟨previous, rest, captured⟩ := here
  obtain rfl : rest = [] := text
  rw [attempt, if_pos rfl, spanLongest, proceed_none]

theorem attempt_longest_cons {c : Char} {rest : List Char} (text : here.rest = c :: rest) :
    (span accepts true none).attempt here next =
      if accepts c then
        match (span accepts true none).attempt (here.advance c rest) next with
        | some stop => some stop
        | none => next here
      else next here := by
  obtain ⟨previous, _, captured⟩ := here
  obtain rfl := text
  rw [attempt, if_pos rfl, spanLongest, proceed_none, attempt, if_pos rfl]
  rfl

/-- A longest run stops behind accepted characters if no longer one leads to success. -/
theorem attempt_longest {taken rest : List Char} (text : here.rest = taken ++ rest)
    (all : ∀ c ∈ taken, accepts c = true)
    (longer : ∀ more stop, rest = more ++ stop.rest → more ≠ [] →
      (∀ c ∈ more, accepts c = true) → next stop = none)
    (ends : next (here.behind taken rest) = some stop) :
    (span accepts true none).attempt here next = some stop := by
  induction taken generalizing here with
  | nil =>
    rw [List.nil_append] at text
    have ends_here : next here = some stop := by
      rw [← text, Cursor.behind_nil] at ends
      exact ends
    cases rest with
    | nil => rw [attempt_longest_nil text, ends_here]
    | cons c rest =>
      rw [attempt_longest_cons text]
      split
      · rename_i accepted
        -- the run would rather go on, but every place further on leads to a failure
        have further : (span accepts true none).attempt (here.advance c rest) next = none := by
          refine attempt_eq_none fun taken stop rest_eq all => ?_
          refine longer (c :: taken) stop ?_ (List.cons_ne_nil c taken)
            (List.forall_mem_cons.mpr ⟨accepted, all⟩)
          rw [List.cons_append, ← rest_eq]
          rfl
        rw [further]
        exact ends_here
      · exact ends_here
  | cons c taken ih =>
    have accepted := all c List.mem_cons_self
    have others := fun d mem => all d (List.mem_cons_of_mem c mem)
    have further : (span accepts true none).attempt (here.advance c (taken ++ rest)) next =
        some stop := by
      refine ih rfl others ?_
      rw [Cursor.advance_behind]
      exact ends
    rw [List.cons_append] at text
    rw [attempt_longest_cons text, if_pos accepted, further]

/-- A longest run of at least one character. -/
theorem attempt_many1 {taken : List Char} (rest : List Char) (text : here.rest = taken ++ rest)
    (nonempty : taken ≠ []) (all : ∀ c ∈ taken, accepts c = true)
    (longer : ∀ more stop, rest = more ++ stop.rest → more ≠ [] →
      (∀ c ∈ more, accepts c = true) → next stop = none)
    (ends : next (here.behind taken rest) = some stop) :
    (many1 accepts).attempt here next = some stop := by
  obtain ⟨c, taken, rfl⟩ := List.exists_cons_of_ne_nil nonempty
  have accepted := all c List.mem_cons_self
  have others := fun d mem => all d (List.mem_cons_of_mem c mem)
  show (append (one accepts) (span accepts true none)).attempt here next = some stop
  rw [attempt, attempt_one text accepted]
  refine attempt_longest rfl others longer ?_
  rw [Cursor.behind_behind]
  exact ends

/-- A run of accepted characters is taken as a whole if it ends where they do. -/
theorem attempt_many_whole {run : List Char} (rest : List Char) (text : here.rest = run ++ rest)
    (all : ∀ c ∈ run, accepts c = true) (maximal : ∀ c ∈ rest.head?, accepts c = false)
    (ends : next (here.behind run rest) = some stop) :
    (many accepts).attempt here next = some stop := by
  refine attempt_longest text all (fun more stop rest_eq more_ne accepted => ?_) ends
  obtain ⟨c, more, rfl⟩ := List.exists_cons_of_ne_nil more_ne
  have refused := maximal c (by rw [rest_eq]; rfl)
  rw [accepted c List.mem_cons_self] at refused
  exact absurd refused.symm Bool.false_ne_true

theorem attempt_many1_whole {run : List Char} (rest : List Char) (text : here.rest = run ++ rest)
    (nonempty : run ≠ []) (all : ∀ c ∈ run, accepts c = true)
    (maximal : ∀ c ∈ rest.head?, accepts c = false)
    (ends : next (here.behind run rest) = some stop) :
    (many1 accepts).attempt here next = some stop := by
  obtain ⟨c, run, rfl⟩ := List.exists_cons_of_ne_nil nonempty
  obtain ⟨accepted, others⟩ := List.forall_mem_cons.mp all
  show (append (one accepts) (many accepts)).attempt here next = some stop
  rw [attempt, attempt_one text accepted]
  refine attempt_many_whole rest rfl others maximal ?_
  rw [Cursor.behind_behind]
  exact ends

/-! ## Shortest runs -/

theorem attempt_shortest_nil (text : here.rest = []) :
    (span accepts false none).attempt here next = next here := by
  obtain ⟨previous, rest, captured⟩ := here
  obtain rfl : rest = [] := text
  rw [attempt, if_neg Bool.false_ne_true, spanShortest, proceed_none]

theorem attempt_shortest_cons {c : Char} {rest : List Char} (text : here.rest = c :: rest) :
    (span accepts false none).attempt here next =
      match next here with
      | some stop => some stop
      | none =>
        if accepts c then (span accepts false none).attempt (here.advance c rest) next
        else none := by
  obtain ⟨previous, _, captured⟩ := here
  obtain rfl := text
  rw [attempt, if_neg Bool.false_ne_true, spanShortest, proceed_none, attempt,
    if_neg Bool.false_ne_true]
  rfl

/-- A shortest run stops behind accepted characters if no shorter one leads to success. -/
theorem attempt_shortest {taken rest : List Char} (text : here.rest = taken ++ rest)
    (all : ∀ c ∈ taken, accepts c = true)
    (shorter : ∀ less more stop, taken = less ++ more → more ≠ [] → stop.rest = more ++ rest →
      next stop = none)
    (ends : next (here.behind taken rest) = some stop) :
    (span accepts false none).attempt here next = some stop := by
  induction taken generalizing here with
  | nil =>
    rw [List.nil_append] at text
    have ends_here : next here = some stop := by
      rw [← text, Cursor.behind_nil] at ends
      exact ends
    cases rest with
    | nil => rw [attempt_shortest_nil text, ends_here]
    | cons c rest => rw [attempt_shortest_cons text, ends_here]
  | cons c taken ih =>
    have accepted := all c List.mem_cons_self
    have others := fun d mem => all d (List.mem_cons_of_mem c mem)
    -- stopping here would leave some of the characters
    have fails : next here = none :=
      shorter [] (c :: taken) here rfl (List.cons_ne_nil c taken) text
    rw [attempt_shortest_cons text, fails]
    simp only [accepted, if_true]
    refine ih rfl others (fun less more stop taken_eq => ?_) ?_
    · exact shorter (c :: less) more stop (by rw [taken_eq, List.cons_append])
    · rw [Cursor.advance_behind]
      exact ends

/-- A shortest run of at least one character. -/
theorem attempt_few1 {taken : List Char} (rest : List Char) (text : here.rest = taken ++ rest)
    (nonempty : taken ≠ []) (all : ∀ c ∈ taken, accepts c = true)
    (shorter : ∀ less more stop, taken = less ++ more → less ≠ [] → more ≠ [] →
      stop.rest = more ++ rest → next stop = none)
    (ends : next (here.behind taken rest) = some stop) :
    (few1 accepts).attempt here next = some stop := by
  obtain ⟨c, taken, rfl⟩ := List.exists_cons_of_ne_nil nonempty
  have accepted := all c List.mem_cons_self
  have others := fun d mem => all d (List.mem_cons_of_mem c mem)
  show (append (one accepts) (span accepts false none)).attempt here next = some stop
  rw [attempt, attempt_one text accepted]
  refine attempt_shortest rfl others (fun less more stop taken_eq more_ne => ?_) ?_
  · exact shorter (c :: less) more stop (by rw [taken_eq, List.cons_append])
      (List.cons_ne_nil c less) more_ne
  · rw [Cursor.behind_behind]
    exact ends

/-- A shortest run goes up to the first of some character if nothing else can follow it. -/
theorem attempt_few1_before {taken : List Char} {c : Char} (rest : List Char)
    (text : here.rest = taken ++ rest) (nonempty : taken ≠ [])
    (all : ∀ d ∈ taken, accepts d = true) (absent : c ∉ taken)
    (refuses : ∀ stop : Cursor ι, stop.rest.head? ≠ some c → next stop = none)
    (ends : next (here.behind taken rest) = some stop) :
    (few1 accepts).attempt here next = some stop := by
  refine attempt_few1 rest text nonempty all (fun less more stop taken_eq _ more_ne stop_eq => ?_)
    ends
  obtain ⟨d, more, rfl⟩ := List.exists_cons_of_ne_nil more_ne
  refine refuses stop ?_
  rw [stop_eq, List.cons_append, List.head?_cons]
  intro same
  refine absent ?_
  rw [taken_eq, ← Option.some_inj.mp same]
  exact List.mem_append_right less List.mem_cons_self

/-! ## Repetitions -/

/-- Only what is done at the stops of a pattern counts. -/
theorem attempt_congr {pattern : Pattern ι} {next' : Cursor ι → Option (Cursor ι)}
    (agree : ∀ stop ∈ pattern.stops here, next stop = next' stop) :
    pattern.attempt here next = pattern.attempt here next' := by
  rw [attempt_eq_findSome?_stops, attempt_eq_findSome?_stops]
  generalize pattern.stops here = places at agree ⊢
  induction places with
  | nil => rfl
  | cons place places ih =>
    obtain ⟨first, others⟩ := List.forall_mem_cons.mp agree
    rw [List.findSome?_cons, List.findSome?_cons, first, ih others]

/-- How many rounds are allowed does not count if they are as many as the characters. -/
theorem repeatThen_eq_of_le {body : Pattern ι} {limit limit' : Nat}
    (enough : here.rest.length ≤ limit) (enough' : here.rest.length ≤ limit') :
    repeatThen body.attempt limit here next = repeatThen body.attempt limit' here next := by
  -- no round takes a character of the empty text
  have at_end {here : Cursor ι} (no_text : here.rest.length = 0) (limit : Nat) :
      repeatThen body.attempt limit here next = next here := by
    cases limit with
    | zero => rw [repeatThen]
    | succ limit =>
      have none_taken : (body.attempt here fun there =>
          if there.rest.length < here.rest.length then repeatThen body.attempt limit there next
          else none) = none :=
        attempt_eq_none fun taken stop _ _ => if_neg (by omega)
      simp only [repeatThen, none_taken]
  induction limit generalizing limit' here with
  | zero =>
    rw [at_end (Nat.le_zero.mp enough), at_end (Nat.le_zero.mp enough)]
  | succ limit ih =>
    cases limit' with
    | zero => rw [at_end (Nat.le_zero.mp enough'), at_end (Nat.le_zero.mp enough')]
    | succ limit' =>
      have rounds : (body.attempt here fun there =>
          if there.rest.length < here.rest.length then repeatThen body.attempt limit there next
          else none) = body.attempt here fun there =>
          if there.rest.length < here.rest.length then repeatThen body.attempt limit' there next
          else none := by
        refine congrArg (body.attempt here) (funext fun there => ?_)
        split
        · exact ih (by omega) (by omega)
        · rfl
      simp only [repeatThen, rounds]

/-- A round is taken if it takes characters and the rest can follow behind it. -/
theorem attempt_repeated_of_some {body : Pattern ι}
    (shorter : ∀ there ∈ body.stops here, there.rest.length < here.rest.length)
    (succeeds : (body.attempt here fun there => (repeated body).attempt there next) = some stop) :
    (repeated body).attempt here next = some stop := by
  have rounds : ∀ there ∈ body.stops here,
      (if there.rest.length < here.rest.length then
        repeatThen body.attempt here.rest.length there next else none) =
          (repeated body).attempt there next := by
    intro there mem
    rw [if_pos (shorter there mem), attempt]
    exact repeatThen_eq_of_le (Nat.le_of_lt (shorter there mem)) (Nat.le_refl _)
  rw [attempt, repeatThen_eq_of_le (Nat.le_refl _) (Nat.le_succ _), repeatThen,
    attempt_congr rounds, succeeds]

/-- Where no round can be taken, the rest follows at once. -/
theorem attempt_repeated_of_forall_not_spells {body : Pattern ι}
    (none_spelled : ∀ taken rest, here.rest = taken ++ rest → ¬body.Spells taken) :
    (repeated body).attempt here next = next here := by
  have none_taken (later : Cursor ι → Option (Cursor ι)) : body.attempt here later = none :=
    attempt_eq_none fun taken stop here_eq spelled =>
      absurd spelled (none_spelled taken stop.rest here_eq)
  rw [attempt]
  cases here.rest.length with
  | zero => rw [repeatThen]
  | succ limit => rw [repeatThen, none_taken]

/-! ## Finds -/

/-- The find is at the first place where the attempt succeeds. -/
theorem findFrom_eq_some {pattern : Pattern ι} {previous : Option Char} {skipped text : List Char}
    (earlier : ∀ less more (here : Cursor ι), skipped = less ++ more → more ≠ [] →
      here.rest = more ++ text → pattern.attempt here some = none)
    (succeeds : pattern.attempt ⟨skipped.getLast?.or previous, text, []⟩ some = some stop) :
    pattern.findFrom previous (skipped ++ text) = some ⟨text, stop⟩ := by
  induction skipped generalizing previous with
  | nil =>
    rw [List.getLast?_nil, Option.none_or] at succeeds
    cases text with
    | nil => rw [List.nil_append, findFrom, succeeds]; rfl
    | cons c text => rw [List.nil_append, findFrom, succeeds]
  | cons c skipped ih =>
    -- the attempt here fails, and the search goes on behind the first character
    have fails := earlier [] (c :: skipped) ⟨previous, c :: (skipped ++ text), []⟩ rfl
      (List.cons_ne_nil c skipped) rfl
    have last : (c :: skipped).getLast?.or previous = skipped.getLast?.or (some c) := by
      rw [List.getLast?_cons]
      cases skipped.getLast? <;> rfl
    rw [List.cons_append, findFrom, fails]
    rw [last] at succeeds
    refine ih (fun less more here skipped_eq => ?_) succeeds
    exact earlier (c :: less) more here (by rw [skipped_eq, List.cons_append])

/-- The find is at the first place where the attempt succeeds. -/
theorem find?_eq_some {pattern : Pattern ι} (skipped text : List Char)
    (earlier : ∀ less more (here : Cursor ι), skipped = less ++ more → more ≠ [] →
      here.rest = more ++ text → pattern.attempt here some = none)
    (succeeds : pattern.attempt ⟨skipped.getLast?, text, []⟩ some = some stop) :
    pattern.find? (skipped ++ text) = some ⟨text, stop⟩ := by
  rw [find?_eq_findFrom]
  refine findFrom_eq_some earlier ?_
  rw [Option.or_none]
  exact succeeds

/-- A sequence that begins with a known text is not found in front of the first of its
characters. -/
theorem find?_seq_literal_eq_some {word : String} {c : Char} {parts : List (Pattern ι)}
    (starts : word.toList.head? = some c) (skipped text : List Char) (absent : c ∉ skipped)
    (succeeds : (seq (literal word :: parts)).attempt ⟨skipped.getLast?, text, []⟩ some = some stop) :
    (seq (literal word :: parts)).find? (skipped ++ text) = some ⟨text, stop⟩ := by
  refine find?_eq_some skipped text (fun less more here skipped_eq more_ne here_eq => ?_) succeeds
  obtain ⟨d, more, rfl⟩ := List.exists_cons_of_ne_nil more_ne
  refine attempt_literal_cons_eq_none starts ?_
  rw [here_eq, List.cons_append, List.head?_cons]
  intro same
  refine absent ?_
  rw [skipped_eq, ← Option.some_inj.mp same]
  exact List.mem_append_right less List.mem_cons_self

end Pattern

end TraceInquest
