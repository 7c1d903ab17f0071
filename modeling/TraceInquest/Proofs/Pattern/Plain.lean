import TraceInquest.Proofs.Pattern.Language

/-! # Patterns that are found wherever they are spelled

A pattern without anchors and look-aheads does not care about what surrounds the text it takes, so
it is found in a text exactly if it spells some part of it. Two such patterns can then be compared
by the texts they spell, whatever either of them prefers.

* **`Pattern.IsPlain`** — whether a pattern has no anchors and no look-aheads.
* **`exists_mem_stops_of_spells`** — a plain pattern has a stop behind every text it spells.
* **`isFoundIn_iff`** — where a plain pattern is found.
* **`isFoundIn_of_spells`** — a pattern is found wherever a more particular one is. -/

namespace TraceInquest.Pattern

variable {ι : Type}

/-- Whether a pattern has no anchors and no look-aheads. Repetitions are left out too, as their
rounds have to take characters. -/
def IsPlain : Pattern ι → Prop
  | .empty | .one _ => True
  | .append first second | .either first second => first.IsPlain ∧ second.IsPlain
  | .span _ _ ahead => ahead = none
  | .capture _ body => body.IsPlain
  | _ => False

/-! ## The vocabulary -/

@[simp] theorem isPlain_capture {label : ι} {body : Pattern ι} :
    (capture label body).IsPlain ↔ body.IsPlain := Iff.rfl

@[simp] theorem isPlain_many1 (accepts : Char → Bool) : (many1 accepts : Pattern ι).IsPlain :=
  ⟨trivial, rfl⟩

@[simp] theorem isPlain_few1 (accepts : Char → Bool) : (few1 accepts : Pattern ι).IsPlain :=
  ⟨trivial, rfl⟩

@[simp] theorem isPlain_among (chars : String) : (among chars : Pattern ι).IsPlain := trivial

@[simp] theorem isPlain_many (accepts : Char → Bool) : (many accepts : Pattern ι).IsPlain := rfl

@[simp] theorem isPlain_few (accepts : Char → Bool) : (few accepts : Pattern ι).IsPlain := rfl

@[simp] theorem isPlain_optional {body : Pattern ι} : (optional body).IsPlain ↔ body.IsPlain :=
  ⟨And.left, fun plain => ⟨plain, trivial⟩⟩

/-- A sequence is plain if its parts are. -/
@[simp] theorem isPlain_seq {parts : List (Pattern ι)} :
    (seq parts).IsPlain ↔ ∀ part ∈ parts, part.IsPlain := by
  induction parts with
  | nil => simp [seq, IsPlain]
  | cons part parts ih =>
    rw [List.forall_mem_cons, ← ih]
    rfl

@[simp] theorem isPlain_literal (text : String) : (literal text : Pattern ι).IsPlain := by
  rw [literal, isPlain_seq]
  intro part mem
  obtain ⟨c, -, rfl⟩ := List.mem_map.mp mem
  exact trivial

@[simp] theorem isPlain_words {texts : List String} (nonempty : texts ≠ []) :
    (words texts : Pattern ι).IsPlain := by
  rw [words]
  induction texts with
  | nil => exact absurd rfl nonempty
  | cons first others ih =>
    cases others with
    | nil => exact isPlain_literal first
    | cons second others => exact ⟨isPlain_literal first, ih (List.cons_ne_nil second others)⟩

/-! ## Stops behind what is spelled -/

/-- A plain pattern has a stop behind every text that it spells. -/
theorem exists_mem_stops_of_spells {pattern : Pattern ι} (plain : pattern.IsPlain)
    {here : Cursor ι} {taken rest : List Char} (text : here.rest = taken ++ rest)
    (spelled : pattern.Spells taken) : ∃ stop ∈ pattern.stops here, stop.rest = rest := by
  induction pattern generalizing here taken rest with
  | empty =>
    obtain rfl : taken = [] := spelled
    exact ⟨here, List.mem_singleton_self here, text⟩
  | one accepts =>
    obtain ⟨c, accepted, rfl⟩ := spelled
    exact ⟨here.behind [c] rest, mem_stops_one.mpr ⟨c, rest, text, accepted, rfl⟩, rfl⟩
  | append first second first_ih second_ih =>
    obtain ⟨front, back, front_spelled, back_spelled, rfl⟩ := spelled
    rw [List.append_assoc] at text
    obtain ⟨middle, middle_mem, middle_rest⟩ := first_ih plain.1 text front_spelled
    obtain ⟨stop, mem, stop_rest⟩ := second_ih plain.2 middle_rest back_spelled
    exact ⟨stop, List.mem_flatMap.mpr ⟨middle, middle_mem, mem⟩, stop_rest⟩
  | either first second first_ih second_ih =>
    rcases spelled with spelled | spelled
    · obtain ⟨stop, mem, stop_rest⟩ := first_ih plain.1 text spelled
      exact ⟨stop, List.mem_append_left _ mem, stop_rest⟩
    · obtain ⟨stop, mem, stop_rest⟩ := second_ih plain.2 text spelled
      exact ⟨stop, List.mem_append_right _ mem, stop_rest⟩
  | span accepts longest ahead =>
    -- a plain run admits every place, so only the order of its stops depends on its preference
    obtain rfl : ahead = none := plain
    exact ⟨here.behind taken rest, mem_stops_span.mpr ⟨taken, rest, text, spelled, rfl⟩, rfl⟩
  | capture label body ih =>
    obtain ⟨stop, mem, stop_rest⟩ := ih plain text spelled
    exact ⟨stop.note label here.rest, List.mem_map_of_mem mem, stop_rest⟩
  | repeated | atStart | atEnd | atWordEdge | notAhead => exact plain.elim

/-! ## Finding plain patterns -/

/-- A plain pattern is found in a text exactly if it spells a part of it. -/
theorem isFoundIn_iff {pattern : Pattern ι} (plain : pattern.IsPlain) {text : List Char} :
    pattern.isFoundIn text = true ↔ ∃ part, part <:+: text ∧ pattern.Spells part := by
  constructor
  · intro isFound
    obtain ⟨found, find⟩ := Option.isSome_iff_exists.mp isFound
    exact exists_infix_of_find? find
  · rintro ⟨part, ⟨skipped, rest, rfl⟩, spelled⟩
    obtain ⟨stop, mem, -⟩ := @exists_mem_stops_of_spells _ _ plain
      (cursorBehind skipped (part ++ rest)) _ rest rfl spelled
    refine (isSome_find?_iff pattern _).mpr ⟨skipped, part ++ rest, List.append_assoc .., ?_⟩
    exact List.ne_nil_of_mem mem

/-- A plain pattern is found in every text in which another one is found, if it spells some part
of each part of the text that the other one spells. -/
theorem isFoundIn_of_spells {pattern general : Pattern ι} (plain : general.IsPlain)
    {text : List Char}
    (covers : ∀ part, part <:+: text → pattern.Spells part →
      ∃ inner, inner <:+: part ∧ general.Spells inner)
    (isFound : pattern.isFoundIn text = true) : general.isFoundIn text = true := by
  obtain ⟨found, find⟩ := Option.isSome_iff_exists.mp isFound
  obtain ⟨part, part_infix, spelled⟩ := exists_infix_of_find? find
  obtain ⟨inner, inner_infix, inner_spelled⟩ := covers part part_infix spelled
  exact (isFoundIn_iff plain).mpr ⟨inner, inner_infix.trans part_infix, inner_spelled⟩

end TraceInquest.Pattern
