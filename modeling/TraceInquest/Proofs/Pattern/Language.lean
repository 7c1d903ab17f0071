import TraceInquest.Proofs.Pattern.Captures

/-! # The texts that a pattern takes

Apart from what surrounds it, whether a pattern can take a text depends on the text alone. Where no
part of a text can be taken, the pattern is not found, whatever it prefers.

* **`Pattern.Spells pattern text`** — whether the pattern can take the text.
* **`Pattern.takesSome`** — whether the pattern takes a character at least.
* **`spells_of_mem_stops`** — what is taken on the way to a stop.
* **`attempt_eq_none`**, **`find?_eq_none`** — attempts and searches that are bound to fail. -/

namespace TraceInquest.Pattern

variable {ι : Type}

/-! ## The texts of a pattern -/

/-- Whether a pattern can take a text, wherever its anchors and look-aheads hold. -/
def Spells : Pattern ι → List Char → Prop
  | .one accepts, text => ∃ c, accepts c = true ∧ text = [c]
  | .append first second, text =>
    ∃ taken rest, first.Spells taken ∧ second.Spells rest ∧ text = taken ++ rest
  | .either first second, text => first.Spells text ∨ second.Spells text
  | .span accepts _ _, text => ∀ c ∈ text, accepts c = true
  | .repeated body, text =>
    ∃ rounds : List (List Char), (∀ round ∈ rounds, body.Spells round) ∧ text = rounds.flatten
  | .capture _ body, text => body.Spells text
  | _, text => text = []

theorem spells_seq_nil {text : List Char} : (seq [] : Pattern ι).Spells text ↔ text = [] := Iff.rfl

theorem spells_seq_cons {part : Pattern ι} {parts : List (Pattern ι)} {text : List Char} :
    (seq (part :: parts)).Spells text ↔
      ∃ taken rest, part.Spells taken ∧ (seq parts).Spells rest ∧ text = taken ++ rest := Iff.rfl

/-- What a sequence takes is what its beginning takes and what its rest takes. -/
theorem spells_seq_append {first second : List (Pattern ι)} {text : List Char} :
    (seq (first ++ second)).Spells text ↔
      ∃ taken rest, (seq first).Spells taken ∧ (seq second).Spells rest ∧ text = taken ++ rest := by
  induction first generalizing text with
  | nil =>
    constructor
    · exact fun spelled => ⟨[], text, rfl, spelled, rfl⟩
    · rintro ⟨_, rest, rfl, spelled, rfl⟩
      exact spelled
  | cons part parts ih =>
    rw [List.cons_append, spells_seq_cons]
    constructor
    · rintro ⟨taken, _, part_spelled, spelled, rfl⟩
      obtain ⟨taken', rest, parts_spelled, second_spelled, rfl⟩ := ih.mp spelled
      exact ⟨taken ++ taken', rest, ⟨taken, taken', part_spelled, parts_spelled, rfl⟩,
        second_spelled, (List.append_assoc ..).symm⟩
    · rintro ⟨_, rest, ⟨taken, taken', part_spelled, parts_spelled, rfl⟩, second_spelled, rfl⟩
      exact ⟨taken, taken' ++ rest, part_spelled,
        ih.mpr ⟨taken', rest, parts_spelled, second_spelled, rfl⟩, List.append_assoc ..⟩

theorem spells_literal {literal_text : String} {text : List Char} :
    (literal literal_text : Pattern ι).Spells text ↔ text = literal_text.toList := by
  rw [literal]
  induction literal_text.toList generalizing text with
  | nil => exact Iff.rfl
  | cons c chars ih =>
    rw [List.map_cons, spells_seq_cons]
    constructor
    · rintro ⟨taken, rest, ⟨d, accepted, rfl⟩, spelled, rfl⟩
      rw [ih.mp spelled, LawfulBEq.eq_of_beq accepted]
      rfl
    · rintro rfl
      exact ⟨[c], chars, ⟨c, beq_self_eq_true c, rfl⟩, ih.mpr rfl, rfl⟩

/-- A sequence that begins with a known text. -/
theorem spells_seq_literal {literal_text : String} {parts : List (Pattern ι)} {text : List Char} :
    (seq (literal literal_text :: parts)).Spells text ↔
      ∃ rest, (seq parts).Spells rest ∧ text = literal_text.toList ++ rest := by
  rw [spells_seq_cons]
  constructor
  · rintro ⟨taken, rest, spelled, rest_spelled, rfl⟩
    exact ⟨rest, rest_spelled, by rw [spells_literal.mp spelled]⟩
  · rintro ⟨rest, rest_spelled, rfl⟩
    exact ⟨_, rest, spells_literal.mpr rfl, rest_spelled, rfl⟩

theorem spells_words {texts : List String} (nonempty : texts ≠ []) {text : List Char} :
    (words texts : Pattern ι).Spells text ↔ ∃ word ∈ texts, text = word.toList := by
  rw [words]
  induction texts with
  | nil => exact absurd rfl nonempty
  | cons first others ih =>
    cases others with
    | nil =>
      rw [List.map_singleton, oneOf, spells_literal]
      simp
    | cons second others =>
      have later := ih (List.cons_ne_nil second others)
      rw [List.map_cons, List.map_cons, oneOf, ← List.map_cons]
      · show (literal first).Spells text ∨ (oneOf _).Spells text ↔ _
        rw [spells_literal, later]
        constructor
        · rintro (same | ⟨word, mem, same⟩)
          · exact ⟨first, List.mem_cons_self, same⟩
          · exact ⟨word, List.mem_cons_of_mem first mem, same⟩
        · rintro ⟨word, mem, same⟩
          rcases List.mem_cons.mp mem with rfl | mem
          · exact .inl same
          · exact .inr ⟨word, mem, same⟩
      · simp

/-- A run of at least one character spells the texts of accepted characters. -/
theorem spells_run {accepts : Char → Bool} {longest : Bool} {ahead : Ahead} {text : List Char} :
    (append (one accepts) (span accepts longest ahead) : Pattern ι).Spells text ↔
      text ≠ [] ∧ ∀ c ∈ text, accepts c = true := by
  constructor
  · rintro ⟨taken, rest, ⟨c, accepted, rfl⟩, all, rfl⟩
    exact ⟨by simp, List.forall_mem_cons.mpr ⟨accepted, all⟩⟩
  · rintro ⟨nonempty, all⟩
    obtain ⟨c, rest, rfl⟩ := List.exists_cons_of_ne_nil nonempty
    exact ⟨[c], rest, ⟨c, all c List.mem_cons_self, rfl⟩,
      fun d mem => all d (List.mem_cons_of_mem c mem), rfl⟩

/-- Whether a pattern takes at least one character. -/
def takesSome : Pattern ι → Bool
  | .one _ => true
  | .append first second => first.takesSome || second.takesSome
  | .either first second => first.takesSome && second.takesSome
  | .capture _ body => body.takesSome
  | _ => false

theorem ne_nil_of_spells {pattern : Pattern ι} (takes : pattern.takesSome = true)
    {text : List Char} (spelled : pattern.Spells text) : text ≠ [] := by
  induction pattern generalizing text with
  | one accepts =>
    obtain ⟨c, -, rfl⟩ := spelled
    exact List.cons_ne_nil c []
  | append first second first_ih second_ih =>
    obtain ⟨taken, rest, first_spelled, second_spelled, rfl⟩ := spelled
    rcases Bool.or_eq_true_iff.mp takes with of_first | of_second
    · exact List.append_ne_nil_of_left_ne_nil (first_ih of_first first_spelled) rest
    · exact List.append_ne_nil_of_right_ne_nil taken (second_ih of_second second_spelled)
  | either first second first_ih second_ih =>
    obtain ⟨of_first, of_second⟩ := Bool.and_eq_true_iff.mp takes
    exact spelled.elim (first_ih of_first) (second_ih of_second)
  | capture label body ih => exact ih takes spelled
  | empty | span accepts longest ahead | repeated body _ | atStart | atEnd | atWordEdge
  | notAhead body _ => cases takes

/-! ## What is taken on the way to a stop -/

theorem taken_of_mem_repeatStops {body : Cursor ι → List (Cursor ι)} {spelled : List Char → Prop}
    (round : ∀ here, ∀ stop ∈ body here, ∃ taken, here.rest = taken ++ stop.rest ∧ spelled taken)
    {limit : Nat} {here stop : Cursor ι} (mem : stop ∈ repeatStops body limit here) :
    ∃ rounds : List (List Char), here.rest = rounds.flatten ++ stop.rest ∧
      ∀ taken ∈ rounds, spelled taken := by
  induction limit generalizing here with
  | zero =>
    rw [repeatStops, List.mem_singleton] at mem
    rw [mem]
    exact ⟨[], rfl, by simp⟩
  | succ limit ih =>
    rw [repeatStops, List.mem_append, List.mem_flatMap, List.mem_singleton] at mem
    rcases mem with ⟨middle, middle_mem, mem⟩ | rfl
    · obtain ⟨taken, here_eq, spelled⟩ := round here middle (List.mem_filter.mp middle_mem).1
      obtain ⟨rounds, middle_eq, all⟩ := ih mem
      refine ⟨taken :: rounds, ?_, List.forall_mem_cons.mpr ⟨spelled, all⟩⟩
      rw [here_eq, middle_eq, List.flatten_cons, List.append_assoc]
    · exact ⟨[], rfl, by simp⟩

/-- On the way to a stop a pattern takes a text that it spells. -/
theorem spells_of_mem_stops {pattern : Pattern ι} {here stop : Cursor ι}
    (mem : stop ∈ pattern.stops here) :
    ∃ taken, here.rest = taken ++ stop.rest ∧ pattern.Spells taken := by
  induction pattern generalizing here stop with
  | empty =>
    obtain rfl := List.mem_singleton.mp mem
    exact ⟨[], rfl, rfl⟩
  | one accepts =>
    obtain ⟨c, rest, text, accepted, rfl⟩ := mem_stops_one.mp mem
    exact ⟨[c], text, c, accepted, rfl⟩
  | append first second first_ih second_ih =>
    obtain ⟨middle, middle_mem, mem⟩ := List.mem_flatMap.mp mem
    obtain ⟨taken, here_eq, spelled⟩ := first_ih middle_mem
    obtain ⟨later, middle_eq, spelled'⟩ := second_ih mem
    exact ⟨taken ++ later, by rw [here_eq, middle_eq, List.append_assoc],
      taken, later, spelled, spelled', rfl⟩
  | either first second first_ih second_ih =>
    rcases List.mem_append.mp mem with mem | mem
    · obtain ⟨taken, here_eq, spelled⟩ := first_ih mem
      exact ⟨taken, here_eq, .inl spelled⟩
    · obtain ⟨taken, here_eq, spelled⟩ := second_ih mem
      exact ⟨taken, here_eq, .inr spelled⟩
  | span accepts longest ahead =>
    obtain ⟨taken, rest, text, all, rfl⟩ := mem_runStops_iff.mp (mem_stops_span_ahead.mp mem).1
    exact ⟨taken, text, all⟩
  | repeated body ih =>
    obtain ⟨rounds, here_eq, all⟩ := taken_of_mem_repeatStops (fun _ _ => ih) mem
    exact ⟨rounds.flatten, here_eq, rounds, all, rfl⟩
  | capture label body ih =>
    obtain ⟨inner, inner_mem, rfl⟩ := mem_stops_capture.mp mem
    obtain ⟨taken, here_eq, spelled⟩ := ih inner_mem
    exact ⟨taken, here_eq, spelled⟩
  | atStart =>
    obtain ⟨-, rfl⟩ := mem_stops_atStart.mp mem
    exact ⟨[], rfl, rfl⟩
  | atEnd =>
    obtain ⟨-, rfl⟩ := mem_stops_atEnd.mp mem
    exact ⟨[], rfl, rfl⟩
  | atWordEdge =>
    obtain ⟨-, rfl⟩ := mem_stops_atWordEdge.mp mem
    exact ⟨[], rfl, rfl⟩
  | notAhead body _ =>
    obtain ⟨-, rfl⟩ := mem_stops_notAhead.mp mem
    exact ⟨[], rfl, rfl⟩

/-! ## What is bound to fail -/

/-- An attempt fails if what comes behind the pattern fails behind every text it can take. -/
theorem attempt_eq_none {pattern : Pattern ι} {here : Cursor ι}
    {next : Cursor ι → Option (Cursor ι)}
    (fails : ∀ taken stop, here.rest = taken ++ stop.rest → pattern.Spells taken →
      next stop = none) : pattern.attempt here next = none := by
  rw [attempt_eq_findSome?_stops, List.findSome?_eq_none_iff]
  intro stop mem
  obtain ⟨taken, here_eq, spelled⟩ := spells_of_mem_stops mem
  exact fails taken stop here_eq spelled

/-- A find takes a part of the text that the pattern spells. -/
theorem exists_infix_of_find? {pattern : Pattern ι} {text : List Char} {found : Found ι}
    (find : pattern.find? text = some found) : ∃ part, part <:+: text ∧ pattern.Spells part := by
  obtain ⟨start, previous, mem⟩ := isIn_of_find? find
  obtain ⟨taken, start_eq, spelled⟩ := spells_of_mem_stops mem
  refine ⟨taken, ?_, spelled⟩
  have front : taken <+: found.start := ⟨found.stop.rest, start_eq.symm⟩
  exact front.isInfix.trans start.isInfix

/-- A pattern is not found in a text of which it spells no part. -/
theorem find?_eq_none {pattern : Pattern ι} {text : List Char}
    (none_spelled : ∀ part, part <:+: text → ¬pattern.Spells part) : pattern.find? text = none := by
  cases find : pattern.find? text with
  | none => rfl
  | some found =>
    obtain ⟨part, infix_text, spelled⟩ := exists_infix_of_find? find
    exact absurd spelled (none_spelled part infix_text)

/-- A sequence is not found in a text of which some of its parts in a row spell no part. -/
theorem find?_seq_eq_none {parts block : List (Pattern ι)} (in_row : block <:+: parts)
    {text : List Char} (none_spelled : ∀ part, part <:+: text → ¬(seq block).Spells part) :
    (seq parts).find? text = none := by
  obtain ⟨before, after, rfl⟩ := in_row
  refine find?_eq_none fun part infix_text spelled => ?_
  obtain ⟨front, back, front_spelled, -, rfl⟩ := spells_seq_append.mp spelled
  obtain ⟨start, taken, -, block_spelled, rfl⟩ := spells_seq_append.mp front_spelled
  refine none_spelled taken (List.IsInfix.trans ?_ infix_text) block_spelled
  exact ⟨start, back, rfl⟩

end TraceInquest.Pattern
