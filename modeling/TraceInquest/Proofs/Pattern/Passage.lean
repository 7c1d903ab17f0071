import Mathlib.Data.List.TakeWhile
import TraceInquest.Proofs.Pattern.Attempt
import TraceInquest.Proofs.Pattern.CapturedTexts

/-! # From a place to a stop

A stop is behind the text that has been taken on the way to it, and the last character of this text
comes before it. A search goes on behind what it has found, so each find has such a place.

* **`Cursor.Passes here stop`** — `stop` is behind some text in front of `here`.
* **`exists_captured_of_mem_stops`** — what a sequence with one capture captures.
* **`Found.IsBehind`** — the place of a find; **`exists_isBehind_of_mem_findAll`**.
* **`findAllFrom_append_eq_cons`**, **`findAllFrom_eq_nil`** — all finds, from the first to the
  last. -/

namespace TraceInquest

variable {ι : Type}

/-! ## The previous character -/

/-- Whether a cursor stands behind some text in front of another one. -/
def Cursor.Passes (here stop : Cursor ι) : Prop :=
  ∃ taken, here.rest = taken ++ stop.rest ∧ stop.previous = taken.getLast?.or here.previous

namespace Cursor.Passes

theorem refl (here : Cursor ι) : here.Passes here := ⟨[], rfl, rfl⟩

theorem trans {here middle stop : Cursor ι} (first : here.Passes middle)
    (second : middle.Passes stop) : here.Passes stop := by
  obtain ⟨taken, here_eq, previous⟩ := first
  obtain ⟨later, middle_eq, previous'⟩ := second
  refine ⟨taken ++ later, ?_, ?_⟩
  · rw [here_eq, middle_eq, List.append_assoc]
  · rw [previous', previous, List.getLast?_append, Option.or_assoc]

theorem isKept : Cursor.IsKept (@Cursor.Passes ι) :=
  ⟨refl, trans, fun text => ⟨[_], text, rfl⟩⟩

end Cursor.Passes

namespace Pattern

variable {here stop : Cursor ι} {accepts : Char → Bool} {part : Pattern ι}
  {parts : List (Pattern ι)}

/-- A stop is behind the text that has been taken. -/
theorem passes_of_mem_stops {pattern : Pattern ι} (mem : stop ∈ pattern.stops here) :
    here.Passes stop := by
  refine Cursor.Passes.isKept.of_mem_stops ?_ mem
  -- a note leaves what has been taken as it is
  rintro - - here inner - ⟨taken, text, previous⟩
  exact ⟨taken, text, previous⟩

/-- A pattern that captures nothing under a label leaves what has been captured under it. -/
theorem find?_captured_of_mem_stops [BEq ι] [LawfulBEq ι] {pattern : Pattern ι} {label : ι}
    (other : ∀ capture ∈ pattern.captureBodies, capture.1 ≠ label)
    (mem : stop ∈ pattern.stops here) :
    (stop.captured.find? fun capture => capture.1 == label) =
      here.captured.find? fun capture => capture.1 == label := by
  obtain ⟨fresh, captured, spelled⟩ := capturesBy_of_mem_stops mem
  have none_fresh : (fresh.find? fun capture => capture.1 == label) = none := by
    rw [List.find?_eq_none]
    intro capture mem
    obtain ⟨body, body_mem, -⟩ := spelled capture mem
    simpa using other _ body_mem
  rw [captured, List.find?_append, none_fresh, Option.none_or]

/-! ## One capture -/

/-- What a sequence captures in one of its parts, if no later part captures under the same label. -/
theorem exists_captured_of_mem_stops [BEq ι] [LawfulBEq ι] {before after : List (Pattern ι)}
    {label : ι} {start : List Char}
    (other : ∀ capture ∈ (seq after).captureBodies, capture.1 ≠ label)
    (mem : stop ∈ (seq (before ++ capture label part :: after)).stops here) :
    ∃ middle ∈ (seq before).stops here, ∃ inner ∈ part.stops middle,
      stop ∈ (seq after).stops (inner.note label middle.rest) ∧
        Found.captured? ⟨start, stop⟩ label = some (textBetween middle.rest inner.rest) := by
  obtain ⟨middle, middle_mem, rest_mem⟩ := mem_stops_seq_append.mp mem
  obtain ⟨_, noted, stop_mem⟩ := mem_stops_seq_cons.mp rest_mem
  obtain ⟨inner, inner_mem, rfl⟩ := mem_stops_capture.mp noted
  refine ⟨middle, middle_mem, inner, inner_mem, stop_mem, ?_⟩
  rw [Found.captured?, find?_captured_of_mem_stops other stop_mem]
  simp [Cursor.note]

/-- The last capture is the one that counts. -/
theorem captured_of_last [BEq ι] [LawfulBEq ι] {found : Found ι} {label : ι} {word rest : List Char}
    {others : List (ι × List Char × List Char)}
    (last : found.stop.captured = (label, word ++ rest, rest) :: others) :
    found.captured label = word := by
  rw [Found.captured, Found.captured?, last]
  simp

/-! ## Attempts part by part -/

theorem attempt_seq_append {first second : List (Pattern ι)}
    {next : Cursor ι → Option (Cursor ι)} :
    (seq (first ++ second)).attempt here next =
      (seq first).attempt here fun middle => (seq second).attempt middle next := by
  induction first generalizing here with
  | nil => rfl
  | cons part parts ih =>
    rw [List.cons_append, attempt_seq_cons, attempt_seq_cons]
    exact congrArg (part.attempt here) (funext fun middle => ih)

/-- A sequence within a sequence. -/
theorem attempt_seq_seq {before inner after : List (Pattern ι)}
    {next : Cursor ι → Option (Cursor ι)} :
    (seq (before ++ seq inner :: after)).attempt here next =
      (seq (before ++ (inner ++ after))).attempt here next := by
  rw [attempt_seq_append, attempt_seq_append]
  refine congrArg ((seq before).attempt here) (funext fun middle => ?_)
  rw [attempt_seq_cons, attempt_seq_append]

/-- An attempt on a sequence that succeeds goes on from a stop of its first parts. -/
theorem exists_attempt_of_seq_append {first second : List (Pattern ι)}
    {next : Cursor ι → Option (Cursor ι)}
    (succeeds : (seq (first ++ second)).attempt here next = some stop) :
    ∃ middle ∈ (seq first).stops here, (seq second).attempt middle next = some stop := by
  rw [attempt_seq_append, attempt_eq_findSome?_stops] at succeeds
  exact List.exists_of_findSome?_eq_some succeeds

theorem exists_attempt_of_seq_cons {next : Cursor ι → Option (Cursor ι)}
    (succeeds : (seq (part :: parts)).attempt here next = some stop) :
    ∃ middle ∈ part.stops here, (seq parts).attempt middle next = some stop := by
  rw [attempt_seq_cons, attempt_eq_findSome?_stops] at succeeds
  exact List.exists_of_findSome?_eq_some succeeds

/-- A longest run goes as far as it can if nothing behind it can fail. -/
theorem exists_of_attempt_many1 {next : Cursor ι → Option (Cursor ι)}
    (total : ∀ there, ∃ stop, next there = some stop)
    (succeeds : (many1 accepts).attempt here next = some stop) :
    ∃ run rest, here.rest = run ++ rest ∧ run ≠ [] ∧ (∀ c ∈ run, accepts c = true) ∧
      (∀ c ∈ rest.head?, accepts c = false) ∧ next (here.behind run rest) = some stop := by
  have text : here.rest = here.rest.takeWhile accepts ++ here.rest.dropWhile accepts :=
    List.takeWhile_append_dropWhile.symm
  have all : ∀ c ∈ here.rest.takeWhile accepts, accepts c = true :=
    fun c mem => List.mem_takeWhile_imp mem
  have maximal : ∀ c ∈ (here.rest.dropWhile accepts).head?, accepts c = false := by
    intro c first
    have refused := List.head?_dropWhile_not accepts here.rest
    rw [Option.mem_def.mp first] at refused
    exact refused
  have nonempty : here.rest.takeWhile accepts ≠ [] := by
    intro empty
    have fails : (many1 accepts).attempt here next = none := by
      refine attempt_eq_none fun taken there here_eq spelled => ?_
      obtain ⟨taken_ne, accepted⟩ := spells_run.mp spelled
      obtain ⟨c, taken, rfl⟩ := List.exists_cons_of_ne_nil taken_ne
      rw [here_eq, List.cons_append, List.takeWhile_cons_of_pos (accepted c List.mem_cons_self)]
        at empty
      exact absurd empty (List.cons_ne_nil c _)
    rw [fails] at succeeds
    cases succeeds
  obtain ⟨there, ends⟩ :=
    total (here.behind (here.rest.takeWhile accepts) (here.rest.dropWhile accepts))
  have same := attempt_many1_whole _ text nonempty all maximal ends
  rw [succeeds] at same
  exact ⟨_, _, text, nonempty, all, maximal, by rw [ends, same]⟩

end Pattern

/-! ## The places of finds -/

/-- Whether a find in a text is the one behind some characters of the text. -/
structure Found.IsBehind (pattern : Pattern ι) (text skipped : List Char) (found : Found ι) :
    Prop where
  text : text = skipped ++ found.start
  attempt : pattern.attempt (Pattern.cursorBehind skipped found.start) some = some found.stop

theorem Found.IsBehind.mem_stops {pattern : Pattern ι} {text skipped : List Char} {found : Found ι}
    (behind : found.IsBehind pattern text skipped) :
    found.stop ∈ pattern.stops (Pattern.cursorBehind skipped found.start) := by
  have first := behind.attempt
  rw [Pattern.attempt_some] at first
  exact List.mem_of_head? first

namespace Pattern

variable {pattern : Pattern ι} {text : List Char} {found : Found ι}

/-- A find of a sequence that captures a run of characters: what was taken in front of the run, the
run, what was taken behind it, and the rest. -/
theorem exists_run_of_isBehind [BEq ι] [LawfulBEq ι] {before after : List (Pattern ι)} {label : ι}
    {accepts : Char → Bool} {skipped : List Char}
    (other : ∀ capture ∈ (seq after).captureBodies, capture.1 ≠ label)
    (is_behind : found.IsBehind (seq (before ++ capture label (many1 accepts) :: after)) text skipped) :
    ∃ taken later rest, text = skipped ++ (taken ++ (found.captured label ++ (later ++ rest))) ∧
      found.captured label ≠ [] ∧ (∀ c ∈ found.captured label, accepts c = true) ∧
      (seq before).Spells taken ∧ (seq after).Spells later ∧ ∃ middle ∈ (seq before).stops
          (cursorBehind skipped (taken ++ (found.captured label ++ (later ++ rest)))),
        middle.rest = found.captured label ++ (later ++ rest) := by
  obtain ⟨middle, middle_mem, inner, inner_mem, stop_mem, captured⟩ :=
    @exists_captured_of_mem_stops _ _ _ _ _ _ _ _ _ found.start other is_behind.mem_stops
  obtain ⟨taken, start_eq, before_spelled⟩ := spells_of_mem_stops middle_mem
  obtain ⟨run, back, middle_eq, nonempty, all, rfl⟩ := mem_stops_run.mp inner_mem
  obtain ⟨later, back_eq, spelled⟩ := spells_of_mem_stops stop_mem
  have captured_eq : found.captured label = run := by
    rw [Found.captured, captured, middle_eq]
    exact textBetween_append run back
  have back_eq : back = later ++ found.stop.rest := back_eq
  have start_eq : found.start = taken ++ (run ++ (later ++ found.stop.rest)) := by
    rw [← back_eq, ← middle_eq]
    exact start_eq
  rw [captured_eq]
  refine ⟨taken, later, found.stop.rest, ?_, nonempty, all, before_spelled, spelled, middle, ?_, ?_⟩
  · rw [← start_eq]
    exact is_behind.text
  · rw [← start_eq]
    exact middle_mem
  · rw [middle_eq, back_eq]

/-- The find of a search that starts behind some text has a place behind that text. -/
theorem exists_isBehind_of_findFrom {previous : Option Char} {before : List Char}
    (last : previous = before.getLast?) (find : pattern.findFrom previous text = some found) :
    ∃ skipped, found.IsBehind pattern (before ++ text) skipped := by
  induction text generalizing previous before with
  | nil =>
    rw [findFrom, Option.map_eq_some_iff] at find
    obtain ⟨stop, attempted, rfl⟩ := find
    exact ⟨before, rfl, by rw [cursorBehind, ← last]; exact attempted⟩
  | cons c rest ih =>
    rw [findFrom] at find
    split at find
    · rename_i stop attempted
      obtain rfl := Option.some_inj.mp find
      exact ⟨before, rfl, by rw [cursorBehind, ← last]; exact attempted⟩
    · obtain ⟨skipped, behind⟩ := @ih (some c) (before ++ [c]) (by simp) find
      rw [List.append_assoc, List.singleton_append] at behind
      exact ⟨skipped, behind⟩

theorem exists_isBehind_of_find? (find : pattern.find? text = some found) :
    ∃ skipped, found.IsBehind pattern text skipped := by
  rw [find?_eq_findFrom] at find
  exact @exists_isBehind_of_findFrom _ _ _ _ none [] rfl find

/-- So has each find of a search that goes on behind its finds. -/
theorem exists_isBehind_of_mem_findAllFrom {previous : Option Char} {before : List Char}
    (last : previous = before.getLast?) (mem : found ∈ pattern.findAllFrom previous text) :
    ∃ skipped, found.IsBehind pattern (before ++ text) skipped := by
  fun_induction pattern.findAllFrom previous text generalizing before with
  | case1 previous text stop attempted shorter ih =>
    subst last
    rcases List.mem_cons.mp mem with rfl | later
    · exact ⟨before, rfl, attempted⟩
    · -- the search goes on behind what has been taken
      rw [attempt_some] at attempted
      obtain ⟨taken, text_eq, previous_eq⟩ := passes_of_mem_stops (List.mem_of_head? attempted)
      have last' : stop.previous = (before ++ taken).getLast? := by
        rw [previous_eq, List.getLast?_append]
      obtain ⟨skipped, behind⟩ := ih last' later
      have text_eq : text = taken ++ stop.rest := text_eq
      rw [List.append_assoc, ← text_eq] at behind
      exact ⟨skipped, behind⟩
  | case2 previous stop attempted _ =>
    subst last
    obtain rfl := List.mem_singleton.mp mem
    exact ⟨before, rfl, attempted⟩
  | case3 previous stop c rest attempted _ ih =>
    subst last
    rcases List.mem_cons.mp mem with rfl | later
    · exact ⟨before, rfl, attempted⟩
    · obtain ⟨skipped, behind⟩ := @ih (before ++ [c]) (by simp) later
      rw [List.append_assoc, List.singleton_append] at behind
      exact ⟨skipped, behind⟩
  | case4 previous attempted => cases mem
  | case5 previous c rest attempted ih =>
    obtain ⟨skipped, behind⟩ := @ih (before ++ [c]) (by simp) mem
    rw [List.append_assoc, List.singleton_append] at behind
    exact ⟨skipped, behind⟩

theorem exists_isBehind_of_mem_findAll (mem : found ∈ pattern.findAll text) :
    ∃ skipped, found.IsBehind pattern text skipped := by
  rw [findAll_eq_findAllFrom] at mem
  exact @exists_isBehind_of_mem_findAllFrom _ _ _ _ none [] rfl mem

/-- What can only be found at the start of a text is found there. -/
theorem isBehind_nil_of_mem_findAll {parts : List (Pattern ι)}
    (mem : found ∈ (seq (atStart :: parts)).findAll text) :
    found.IsBehind (seq (atStart :: parts)) text [] := by
  obtain ⟨skipped, is_behind⟩ := exists_isBehind_of_mem_findAll mem
  obtain ⟨_, start_mem, -⟩ := mem_stops_seq_cons.mp is_behind.mem_stops
  obtain rfl : skipped = [] := List.getLast?_eq_none_iff.mp (mem_stops_atStart.mp start_mem).1
  exact is_behind

/-! ## All finds -/

/-- The first of all finds is the find of a search. -/
theorem head?_findAllFrom {previous : Option Char} :
    (pattern.findAllFrom previous text).head? = pattern.findFrom previous text := by
  induction text generalizing previous with
  | nil =>
    rw [findAllFrom, findFrom]
    cases pattern.attempt ⟨previous, [], []⟩ some <;> simp
  | cons c rest ih =>
    rw [findAllFrom, findFrom]
    cases pattern.attempt ⟨previous, c :: rest, []⟩ some with
    | none => exact ih
    | some stop =>
      -- the find comes first, however far the next search goes on behind it
      dsimp only
      split <;> rfl

theorem head?_findAll : (pattern.findAll text).head? = pattern.find? text := by
  rw [findAll_eq_findAllFrom, find?_eq_findFrom, head?_findAllFrom]

/-- The first find in a text is one of all finds in it. -/
theorem mem_findAll_of_find? (find : pattern.find? text = some found) :
    found ∈ pattern.findAll text := by
  rw [← head?_findAll] at find
  exact List.mem_of_head? find

theorem find?_of_findAll_eq_cons {others : List (Found ι)}
    (finds : pattern.findAll text = found :: others) : pattern.find? text = some found := by
  rw [← head?_findAll, finds, List.head?_cons]

theorem isFoundIn_of_findAll_eq_cons {others : List (Found ι)}
    (finds : pattern.findAll text = found :: others) : pattern.isFoundIn text = true := by
  rw [isFoundIn, find?_of_findAll_eq_cons finds, Option.isSome_some]

/-- A find takes a part of the text that the pattern spells. -/
theorem exists_infix_of_mem_findAllFrom {previous : Option Char}
    (mem : found ∈ pattern.findAllFrom previous text) :
    ∃ part, part <:+: text ∧ pattern.Spells part := by
  obtain ⟨start, before, stops⟩ := isIn_of_mem_findAllFrom mem
  obtain ⟨taken, start_eq, spelled⟩ := spells_of_mem_stops stops
  have front : taken <+: found.start := ⟨found.stop.rest, start_eq.symm⟩
  exact ⟨taken, front.isInfix.trans start.isInfix, spelled⟩

/-- A pattern of which no part of a text is spelled has no finds in it. -/
theorem findAllFrom_eq_nil {previous : Option Char}
    (none_spelled : ∀ part, part <:+: text → ¬pattern.Spells part) :
    pattern.findAllFrom previous text = [] := by
  rw [List.eq_nil_iff_forall_not_mem]
  intro found mem
  obtain ⟨part, infix_text, spelled⟩ := exists_infix_of_mem_findAllFrom mem
  exact none_spelled part infix_text spelled

/-- The first find is at the first place where the attempt succeeds, and the others are behind
it. -/
theorem findAllFrom_append_eq_cons {previous : Option Char} {skipped : List Char}
    {stop : Cursor ι}
    (earlier : ∀ less more (here : Cursor ι), skipped = less ++ more → more ≠ [] →
      here.rest = more ++ text → pattern.attempt here some = none)
    (succeeds : pattern.attempt ⟨skipped.getLast?.or previous, text, []⟩ some = some stop)
    (progress : stop.rest.length < text.length) :
    pattern.findAllFrom previous (skipped ++ text) =
      ⟨text, stop⟩ :: pattern.findAllFrom stop.previous stop.rest := by
  induction skipped generalizing previous with
  | nil =>
    rw [List.getLast?_nil, Option.none_or] at succeeds
    rw [List.nil_append, findAllFrom.eq_def, succeeds]
    simp only [progress, if_true]
  | cons c skipped ih =>
    have fails := earlier [] (c :: skipped) ⟨previous, c :: (skipped ++ text), []⟩ rfl
      (List.cons_ne_nil c skipped) rfl
    have last : (c :: skipped).getLast?.or previous = skipped.getLast?.or (some c) := by
      rw [List.getLast?_cons]
      cases skipped.getLast? <;> rfl
    rw [last] at succeeds
    rw [List.cons_append, findAllFrom.eq_def, fails]
    refine ih (fun less more here skipped_eq => ?_) succeeds
    exact earlier (c :: less) more here (by rw [skipped_eq, List.cons_append])

/-- A search finds one place if nothing behind it is spelled by the pattern. -/
theorem findAll_append_eq_singleton {skipped : List Char} {stop : Cursor ι}
    (earlier : ∀ less more (here : Cursor ι), skipped = less ++ more → more ≠ [] →
      here.rest = more ++ text → pattern.attempt here some = none)
    (succeeds : pattern.attempt ⟨skipped.getLast?, text, []⟩ some = some stop)
    (progress : stop.rest.length < text.length)
    (none_spelled : ∀ part, part <:+: stop.rest → ¬pattern.Spells part) :
    pattern.findAll (skipped ++ text) = [⟨text, stop⟩] := by
  rw [findAll_eq_findAllFrom, findAllFrom_append_eq_cons earlier _ progress,
    findAllFrom_eq_nil none_spelled]
  rw [Option.or_none]
  exact succeeds

/-- A search finds the start of a text alone if nothing behind what it takes is spelled. -/
theorem findAll_eq_singleton {stop : Cursor ι}
    (succeeds : pattern.attempt ⟨none, text, []⟩ some = some stop)
    (progress : stop.rest.length < text.length)
    (none_spelled : ∀ part, part <:+: stop.rest → ¬pattern.Spells part) :
    pattern.findAll text = [⟨text, stop⟩] := by
  refine @findAll_append_eq_singleton _ _ _ [] stop ?_ succeeds progress none_spelled
  intro less more here empty more_ne
  exact absurd (List.append_eq_nil_iff.mp empty.symm).2 more_ne

end Pattern

end TraceInquest
