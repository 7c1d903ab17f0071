import TraceInquest.Pattern.Stops

/-! # Where each kind of pattern stops

A pattern takes a piece of the text and stops behind it, where the last character of the piece comes
before; a capture notes what its body has taken, and anchors and look-aheads take nothing. A sequence
is read part by part: each part goes on where the one in front of it has stopped.

* **`Cursor.behind here text rest`** — the cursor behind some text.
* **`mem_stops_one`**, **`mem_stops_span`**, **`mem_stops_capture`**, … — the stops of a pattern, by
  what it is made of.
* **`mem_stops_seq_cons`**, **`mem_stops_literal`**, **`mem_stops_run`** — those of sequences. -/

namespace TraceInquest

variable {ι : Type}

/-! ## Behind some text -/

/-- The cursor behind `text`, in front of `rest`. -/
def Cursor.behind (here : Cursor ι) (text rest : List Char) : Cursor ι :=
  { here with previous := text.getLast?.or here.previous, rest }

namespace Cursor

@[simp] theorem behind_rest (here : Cursor ι) (text rest : List Char) :
    (here.behind text rest).rest = rest := rfl

@[simp] theorem behind_captured (here : Cursor ι) (text rest : List Char) :
    (here.behind text rest).captured = here.captured := rfl

theorem behind_nil (here : Cursor ι) : here.behind [] here.rest = here := rfl

theorem advance_behind (here : Cursor ι) (c : Char) (middle text rest : List Char) :
    (here.advance c middle).behind text rest = here.behind (c :: text) rest := by
  rw [behind, behind, advance, List.getLast?_cons]
  cases text.getLast? <;> rfl

theorem behind_behind (here : Cursor ι) (text middle text' rest : List Char) :
    (here.behind text middle).behind text' rest = here.behind (text ++ text') rest := by
  rw [behind, behind, behind, List.getLast?_append, Option.or_assoc]

end Cursor

namespace Pattern

variable {here stop : Cursor ι} {accepts : Char → Bool} {part : Pattern ι}
  {parts : List (Pattern ι)}

/-! ## Characters and runs -/

/-- A place at which a pattern stops under a condition. -/
theorem mem_stops_when {there : Cursor ι} {holds : Prop} [Decidable holds] :
    stop ∈ (if holds then [there] else []) ↔ holds ∧ stop = there := by
  rw [List.mem_ite_nil_right, List.mem_singleton]

theorem mem_stops_one :
    stop ∈ (one accepts).stops here ↔
      ∃ c rest, here.rest = c :: rest ∧ accepts c = true ∧ stop = here.behind [c] rest := by
  obtain ⟨previous, text, captured⟩ := here
  cases text with
  | nil =>
    refine iff_of_false List.not_mem_nil ?_
    rintro ⟨c, rest, same, -⟩
    cases same
  | cons c rest =>
    have taken : stop ∈ (one accepts).stops ⟨previous, c :: rest, captured⟩ ↔
        accepts c = true ∧ stop = Cursor.behind ⟨previous, c :: rest, captured⟩ [c] rest :=
      mem_stops_when
    rw [taken]
    constructor
    · rintro ⟨accepted, same⟩
      exact ⟨c, rest, rfl, accepted, same⟩
    · rintro ⟨_, _, same, accepted, stop_eq⟩
      obtain ⟨rfl, rfl⟩ := List.cons.inj same
      exact ⟨accepted, stop_eq⟩

theorem mem_runStops_iff {captured : List (ι × List Char × List Char)} {previous : Option Char}
    {text : List Char} :
    stop ∈ runStops accepts captured previous text ↔
      ∃ taken rest, text = taken ++ rest ∧ (∀ c ∈ taken, accepts c = true) ∧
        stop = Cursor.behind ⟨previous, text, captured⟩ taken rest := by
  induction text generalizing previous with
  | nil =>
    rw [runStops, List.mem_singleton]
    constructor
    · rintro rfl
      exact ⟨[], [], rfl, by simp, rfl⟩
    · rintro ⟨taken, rest, text_eq, -, rfl⟩
      obtain ⟨rfl, rfl⟩ := List.append_eq_nil_iff.mp text_eq.symm
      rfl
  | cons c text ih =>
    rw [runStops, List.mem_cons]
    constructor
    · rintro (rfl | mem)
      · exact ⟨[], c :: text, rfl, by simp, rfl⟩
      · split at mem
        · rename_i accepted
          obtain ⟨taken, rest, text_eq, all, rfl⟩ := ih.mp mem
          refine ⟨c :: taken, rest, by rw [text_eq, List.cons_append],
            List.forall_mem_cons.mpr ⟨accepted, all⟩, ?_⟩
          exact Cursor.advance_behind ⟨previous, c :: text, captured⟩ c text taken rest
        · cases mem
    · rintro ⟨taken, rest, text_eq, all, rfl⟩
      cases taken with
      | nil =>
        rw [List.nil_append] at text_eq
        rw [text_eq]
        exact .inl rfl
      | cons d taken =>
        rw [List.cons_append, List.cons.injEq] at text_eq
        obtain ⟨rfl, rfl⟩ := text_eq
        obtain ⟨accepted, others⟩ := List.forall_mem_cons.mp all
        right
        rw [if_pos accepted, ih]
        exact ⟨taken, rest, rfl, others,
          (Cursor.advance_behind ⟨previous, _, captured⟩ c _ taken rest).symm⟩

/-- A run stops where its look-ahead allows it, whatever it prefers. -/
theorem mem_stops_span_ahead {longest : Bool} {ahead : Ahead} :
    stop ∈ (span accepts longest ahead).stops here ↔
      stop ∈ runStops accepts here.captured here.previous here.rest ∧
        ahead.admits stop.rest = true := by
  cases longest with
  | true => exact List.mem_reverse.trans List.mem_filter
  | false => exact List.mem_filter

/-- A run without look-ahead stops behind accepted characters. -/
theorem mem_stops_span {longest : Bool} :
    stop ∈ (span accepts longest none).stops here ↔
      ∃ taken rest, here.rest = taken ++ rest ∧ (∀ c ∈ taken, accepts c = true) ∧
        stop = here.behind taken rest := by
  rw [mem_stops_span_ahead, mem_runStops_iff]
  exact and_iff_left rfl

/-! ## Captures, anchors and repetitions -/

theorem mem_stops_capture {label : ι} :
    stop ∈ (capture label part).stops here ↔
      ∃ inner ∈ part.stops here, stop = inner.note label here.rest := by
  refine List.mem_map.trans ?_
  simp only [eq_comm]

theorem mem_stops_atStart :
    stop ∈ (atStart : Pattern ι).stops here ↔ here.previous = none ∧ stop = here :=
  mem_stops_when.trans (and_congr_left' Option.isNone_iff_eq_none)

theorem mem_stops_atEnd :
    stop ∈ (atEnd : Pattern ι).stops here ↔ here.atEnd = true ∧ stop = here := mem_stops_when

theorem mem_stops_atWordEdge :
    stop ∈ (atWordEdge : Pattern ι).stops here ↔ here.atWordEdge = true ∧ stop = here :=
  mem_stops_when

theorem mem_stops_notAhead :
    stop ∈ (notAhead part).stops here ↔ part.stops here = [] ∧ stop = here :=
  mem_stops_when.trans (and_congr_left' List.isEmpty_iff)

/-- A repetition may stop at once. -/
theorem mem_stops_repeated_self : here ∈ (repeated part).stops here := by
  show here ∈ repeatStops part.stops here.rest.length here
  cases here.rest.length with
  | zero => exact List.mem_singleton_self here
  | succ limit => exact List.mem_append_right _ (List.mem_singleton_self here)

/-! ## Sequences -/

theorem mem_stops_seq_nil : stop ∈ (seq []).stops here ↔ stop = here := List.mem_singleton

theorem mem_stops_seq_cons :
    stop ∈ (seq (part :: parts)).stops here ↔
      ∃ middle ∈ part.stops here, stop ∈ (seq parts).stops middle := List.mem_flatMap

theorem mem_stops_seq_append {first second : List (Pattern ι)} :
    stop ∈ (seq (first ++ second)).stops here ↔
      ∃ middle ∈ (seq first).stops here, stop ∈ (seq second).stops middle := by
  induction first generalizing here with
  | nil => simp [mem_stops_seq_nil]
  | cons part parts ih =>
    simp only [List.cons_append, mem_stops_seq_cons, ih]
    constructor
    · rintro ⟨inner, inner_mem, middle, middle_mem, mem⟩
      exact ⟨middle, ⟨inner, inner_mem, middle_mem⟩, mem⟩
    · rintro ⟨middle, ⟨inner, inner_mem, middle_mem⟩, mem⟩
      exact ⟨inner, inner_mem, middle, middle_mem, mem⟩

theorem mem_stops_literal {text : String} :
    stop ∈ (literal text).stops here ↔
      ∃ rest, here.rest = text.toList ++ rest ∧ stop = here.behind text.toList rest := by
  rw [literal]
  induction text.toList generalizing here with
  | nil =>
    rw [List.map_nil, mem_stops_seq_nil]
    simp only [List.nil_append]
    constructor
    · rintro rfl
      exact ⟨_, rfl, rfl⟩
    · rintro ⟨rest, rfl, rfl⟩
      rfl
  | cons c chars ih =>
    rw [List.map_cons, mem_stops_seq_cons]
    constructor
    · rintro ⟨middle, middle_mem, mem⟩
      obtain ⟨d, rest, here_eq, accepted, rfl⟩ := mem_stops_one.mp middle_mem
      obtain ⟨behind, rest_eq, rfl⟩ := ih.mp mem
      -- a literal takes its own characters, one after the other
      obtain rfl : d = c := by simpa using accepted
      rw [Cursor.behind_rest] at rest_eq
      refine ⟨behind, by rw [here_eq, rest_eq, List.cons_append], ?_⟩
      rw [Cursor.behind_behind, List.singleton_append]
    · rintro ⟨rest, here_eq, rfl⟩
      refine ⟨here.behind [c] (chars ++ rest), mem_stops_one.mpr ⟨c, _, here_eq, by simp, rfl⟩, ?_⟩
      exact ih.mpr ⟨rest, rfl, by rw [Cursor.behind_behind, List.singleton_append]⟩

theorem mem_stops_words {texts : List String} (nonempty : texts ≠ []) :
    stop ∈ (words texts).stops here ↔ ∃ word ∈ texts, stop ∈ (literal word).stops here := by
  rw [words]
  induction texts with
  | nil => exact absurd rfl nonempty
  | cons first others ih =>
    cases others with
    | nil => simp [oneOf]
    | cons second others =>
      have later := ih (List.cons_ne_nil second others)
      have unfolded : (oneOf ((first :: second :: others).map literal)).stops here =
          (literal first : Pattern ι).stops here ++
            (oneOf ((second :: others).map literal)).stops here := rfl
      rw [unfolded, List.mem_append, later]
      simp

theorem mem_stops_run {longest : Bool} :
    stop ∈ (append (one accepts) (span accepts longest none)).stops here ↔
      ∃ taken rest, here.rest = taken ++ rest ∧ taken ≠ [] ∧ (∀ c ∈ taken, accepts c = true) ∧
        stop = here.behind taken rest := by
  refine List.mem_flatMap.trans ⟨?_, ?_⟩
  · rintro ⟨middle, middle_mem, mem⟩
    obtain ⟨c, rest, here_eq, accepted, rfl⟩ := mem_stops_one.mp middle_mem
    obtain ⟨taken, behind, rest_eq, all, rfl⟩ := mem_stops_span.mp mem
    rw [Cursor.behind_rest] at rest_eq
    refine ⟨c :: taken, behind, by rw [here_eq, rest_eq, List.cons_append],
      List.cons_ne_nil c taken, List.forall_mem_cons.mpr ⟨accepted, all⟩, ?_⟩
    rw [Cursor.behind_behind, List.singleton_append]
  · rintro ⟨taken, rest, here_eq, nonempty, all, rfl⟩
    obtain ⟨c, taken, rfl⟩ := List.exists_cons_of_ne_nil nonempty
    obtain ⟨accepted, others⟩ := List.forall_mem_cons.mp all
    refine ⟨here.behind [c] (taken ++ rest), mem_stops_one.mpr ⟨c, _, here_eq, accepted, rfl⟩, ?_⟩
    refine mem_stops_span.mpr ⟨taken, rest, rfl, others, ?_⟩
    rw [Cursor.behind_behind, List.singleton_append]

end Pattern

end TraceInquest
