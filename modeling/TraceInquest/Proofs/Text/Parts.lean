/-! # Parts of a text

* **`beq_eq_false_of_not_mem`** — what a test for some character says of a text without it.
* **`append_cons_inj`**, **`append_cons_inj_of_last`**, **`append_cons_inj_of_once`** — a text is cut
  in one way only at the first, at the last and at the only one of some character.
* **`append_run_inj`** — a text is cut in one way only behind its first run.
* **`append_cons_cases`** — an entry stands at some place or behind it.
* **`Enclosed.eq_of_once`** — between the only two marks of a text stands one text alone.
* **`append_eq_append_cons`**, **`infix_of_infix_append_cons`**,
  **`suffix_of_suffix_append_cons`** — a part without some character lies on one side of it.
* **`mem_of_mem_intercalate`** — what texts put together are made of. -/

namespace TraceInquest.Text

/-! ## Deciding over the characters of a text -/

section Deciding

-- There are finitely many characters, so that a statement about those of a text could be decided by
-- going through all characters there are. These instances come first and go through the text alone.
variable {p : Char → Prop} [DecidablePred p]

instance (priority := 1100) decidableForallMem (text : List Char) : Decidable (∀ c ∈ text, p c) :=
  List.decidableBAll p text

instance (priority := 1100) decidableExistsMem (text : List Char) : Decidable (∃ c ∈ text, p c) :=
  List.decidableBEx p text

instance (priority := 1100) decidableForallMemOption (first : Option Char) :
    Decidable (∀ c ∈ first, p c) := Option.decidableForallMem first

instance (priority := 1100) decidableExistsMemOption (first : Option Char) :
    Decidable (∃ c ∈ first, p c) := Option.decidableExistsMem first

end Deciding

/-! ## Cutting a text -/

/-- In a list without an entry every entry differs from it. -/
theorem beq_eq_false_of_not_mem {α : Type} [DecidableEq α] {mark : α} {entries : List α}
    (absent : mark ∉ entries) : ∀ entry ∈ entries, (entry == mark) = false := by
  intro entry mem
  exact beq_false_of_ne fun same => absent (same ▸ mem)

/-- What stands in front of the first of some entry is what comes before it. -/
theorem takeWhile_append_cons {α : Type} [DecidableEq α] {mark : α} {before : List α}
    (absent : mark ∉ before) (behind : List α) :
    (before ++ mark :: behind).takeWhile (· != mark) = before := by
  have kept : ∀ entry ∈ before, (entry != mark) = true := by
    intro entry mem
    rw [bne, beq_eq_false_of_not_mem absent entry mem]
    rfl
  rw [List.takeWhile_append_of_pos kept, List.takeWhile_cons_of_neg (by simp), List.append_nil]

/-- A list with some entry can be cut at the last of them. -/
theorem exists_append_cons_of_mem_last {α : Type} [DecidableEq α] {mark : α} {entries : List α}
    (mem : mark ∈ entries) : ∃ before behind, entries = before ++ mark :: behind ∧ mark ∉ behind := by
  obtain ⟨behind, before, reversed, absent⟩ :=
    List.eq_append_cons_of_mem (List.mem_reverse.mpr mem)
  refine ⟨before.reverse, behind.reverse, ?_, by simpa using absent⟩
  rw [← List.reverse_reverse entries, reversed]
  simp

/-- A list is cut in one way only at an entry that does not occur before it. -/
theorem append_cons_inj {α : Type} [DecidableEq α] {mark : α}
    {before before' behind behind' : List α} (absent : mark ∉ before) (absent' : mark ∉ before')
    (same : before ++ mark :: behind = before' ++ mark :: behind') :
    before = before' ∧ behind = behind' := by
  have before_eq : before = before' := by
    rw [← takeWhile_append_cons absent behind, same, takeWhile_append_cons absent']
  rw [before_eq, List.append_cancel_left_eq, List.cons.injEq] at same
  exact ⟨before_eq, same.2⟩

/-- A list is cut in one way only at an entry that does not occur behind it. -/
theorem append_cons_inj_of_last {α : Type} [DecidableEq α] {mark : α}
    {before before' behind behind' : List α} (absent : mark ∉ behind) (absent' : mark ∉ behind')
    (same : before ++ mark :: behind = before' ++ mark :: behind') :
    before = before' ∧ behind = behind' := by
  have reversed := congrArg List.reverse same
  simp only [List.reverse_append, List.reverse_cons, List.append_assoc, List.singleton_append]
    at reversed
  obtain ⟨behind_eq, before_eq⟩ := append_cons_inj (by simpa using absent) (by simpa using absent')
    reversed
  exact ⟨List.reverse_inj.mp before_eq, List.reverse_inj.mp behind_eq⟩

/-- A list is cut in one way only at an entry that occurs once. -/
theorem append_cons_inj_of_once {α : Type} [DecidableEq α] {mark : α}
    {before before' behind behind' : List α} (absent : mark ∉ before) (absent_behind : mark ∉ behind)
    (same : before' ++ mark :: behind' = before ++ mark :: behind) :
    before' = before ∧ behind' = behind := by
  -- the entry occurs once on both sides, so it does not occur in front of itself
  have counts := congrArg (List.count mark) same
  rw [List.count_append, List.count_append, List.count_cons_self, List.count_cons_self,
    List.count_eq_zero.mpr absent, List.count_eq_zero.mpr absent_behind] at counts
  have absent' : mark ∉ before' := by
    rw [← List.count_eq_zero]
    omega
  exact append_cons_inj absent' absent same

/-- A list is cut in one way only into accepted entries and a rest that does not go on with them. -/
theorem append_run_inj {α : Type} {accepts : α → Bool} {run run' tail tail' : List α}
    (all : ∀ entry ∈ run, accepts entry = true) (all' : ∀ entry ∈ run', accepts entry = true)
    (ends : ∀ entry ∈ tail.head?, accepts entry = false)
    (ends' : ∀ entry ∈ tail'.head?, accepts entry = false) (same : run ++ tail = run' ++ tail') :
    run = run' ∧ tail = tail' := by
  have first_run {run tail : List α} (all : ∀ entry ∈ run, accepts entry = true)
      (ends : ∀ entry ∈ tail.head?, accepts entry = false) :
      (run ++ tail).takeWhile accepts = run := by
    rw [List.takeWhile_append_of_pos all]
    cases tail with
    | nil => exact List.append_nil run
    | cons entry tail =>
      rw [List.takeWhile_cons_of_neg (by simp [ends entry rfl]), List.append_nil]
  have run_eq : run = run' := by
    rw [← first_run all ends, same, first_run all' ends']
  rw [run_eq] at same
  exact ⟨run_eq, List.append_cancel_left same⟩

/-- An entry that does not occur in front of a place stands at it or behind it. -/
theorem append_cons_cases {α : Type} {mark entry : α} {before before' behind behind' : List α}
    (absent : mark ∉ before) (same : before' ++ mark :: behind' = before ++ entry :: behind) :
    (before' = before ∧ mark = entry ∧ behind' = behind) ∨
      ∃ between, before' = before ++ entry :: between ∧ behind = between ++ mark :: behind' := by
  rcases List.append_eq_append_iff.mp same with ⟨inner, rfl, same'⟩ | ⟨inner, rfl, same'⟩
  · cases inner with
    | nil =>
      obtain ⟨mark_eq, behind_eq⟩ := List.cons.inj same'
      exact .inl ⟨(List.append_nil _).symm, mark_eq, behind_eq⟩
    | cons d inner =>
      obtain ⟨rfl, -⟩ := List.cons.inj same'
      exact absurd (List.mem_append_right before' List.mem_cons_self) absent
  · cases inner with
    | nil =>
      obtain ⟨entry_eq, behind_eq⟩ := List.cons.inj same'
      exact .inl ⟨List.append_nil _, entry_eq.symm, behind_eq.symm⟩
    | cons d inner =>
      obtain ⟨rfl, rfl⟩ := List.cons.inj same'
      exact .inr ⟨inner, rfl, rfl⟩

/-- A part without some character lies on one side of it, and so does what is on its other side. -/
theorem append_eq_append_cons {front part back before behind : List Char} {c : Char}
    (absent : c ∉ part) (same : front ++ (part ++ back) = before ++ c :: behind) :
    (∃ rest, before = front ++ part ++ rest ∧ back = rest ++ c :: behind) ∨
      ∃ rest, front = before ++ c :: rest ∧ behind = rest ++ (part ++ back) := by
  rcases List.append_eq_append_iff.mp same with ⟨inner, rfl, part_same⟩ | ⟨inner, rfl, same'⟩
  · rcases List.append_eq_append_iff.mp part_same with ⟨rest, rfl, rfl⟩ | ⟨rest, rfl, back_same⟩
    · exact .inl ⟨rest, by rw [List.append_assoc], rfl⟩
    · cases rest with
      | nil => exact .inl ⟨[], by simp, back_same.symm⟩
      | cons d rest =>
        obtain ⟨rfl, -⟩ := List.cons.inj back_same
        exact absurd (List.mem_append_right inner List.mem_cons_self) absent
  · cases inner with
    | nil =>
      cases part with
      | nil => exact .inl ⟨[], by simp, same'.symm⟩
      | cons d part =>
        obtain ⟨rfl, -⟩ := List.cons.inj same'
        exact absurd List.mem_cons_self absent
    | cons d inner =>
      obtain ⟨rfl, rfl⟩ := List.cons.inj same'
      exact .inr ⟨inner, rfl, rfl⟩

/-- A part without some character lies on one side of it. -/
theorem infix_of_infix_append_cons {part before behind : List Char} {c : Char} (absent : c ∉ part)
    (infix_text : part <:+: before ++ c :: behind) : part <:+: before ∨ part <:+: behind := by
  obtain ⟨front, back, same⟩ := infix_text
  rw [List.append_assoc] at same
  rcases append_eq_append_cons absent same with ⟨rest, rfl, -⟩ | ⟨rest, -, rfl⟩
  · exact .inl ⟨front, rest, rfl⟩
  · exact .inr ⟨rest, back, List.append_assoc ..⟩

/-- An end without some character lies behind it. -/
theorem suffix_of_suffix_append_cons {part before behind : List Char} {c : Char} (absent : c ∉ part)
    (suffix_text : part <:+ before ++ c :: behind) : part <:+ behind := by
  have behind_suffix : behind <:+ before ++ c :: behind :=
    (List.suffix_cons c behind).trans (List.suffix_append before _)
  rcases Nat.lt_or_ge behind.length part.length with longer | shorter
  · -- a longer end would begin with the character or in front of it
    have whole : c :: behind <:+ part :=
      List.suffix_of_suffix_length_le (List.suffix_append before _) suffix_text longer
    exact absurd (whole.subset List.mem_cons_self) absent
  · exact List.suffix_of_suffix_length_le suffix_text behind_suffix shorter

/-! ## A part between two marks -/

/-- Whether a text stands in another one between two marks, of which the second is the first of its
kind behind it. -/
def Enclosed (opens closes : Char → Bool) (inner text : List Char) : Prop :=
  ∃ front first last back, text = front ++ first :: (inner ++ last :: back) ∧ opens first = true ∧
    closes last = true ∧ ∀ c ∈ inner, closes c = false

namespace Enclosed

variable {opens closes : Char → Bool} {inner text : List Char}

theorem exists_mem (enclosed : Enclosed opens closes inner text) : ∃ c ∈ text, opens c = true := by
  obtain ⟨front, first, last, back, rfl, opening, -⟩ := enclosed
  exact ⟨first, List.mem_append_right front List.mem_cons_self, opening⟩

/-- Between the only two marks of a text stands one text alone. -/
theorem eq_of_once (enclosed : Enclosed opens closes inner text) {head middle tail : List Char}
    {first last : Char} (text_eq : text = head ++ first :: (middle ++ last :: tail))
    (closing : closes last = true) (head_plain : ∀ c ∈ head, opens c = false)
    (middle_plain : ∀ c ∈ middle, opens c = false ∧ closes c = false)
    (tail_plain : ∀ c ∈ tail, opens c = false ∧ closes c = false) : inner = middle := by
  obtain ⟨front, first', last', back, same, opening, closing', inner_plain⟩ := enclosed
  have absent {part : List Char} (plain : ∀ c ∈ part, opens c = false) : first' ∉ part := by
    intro mem
    rw [plain first' mem] at opening
    cases opening
  have not_in_tail : last' ∉ tail := by
    intro mem
    rw [(tail_plain last' mem).2] at closing'
    cases closing'
  rw [text_eq] at same
  rcases append_cons_cases (absent head_plain) same.symm with ⟨-, -, behind⟩ | ⟨between, -, behind⟩
  · have kept {part : List Char} (plain : ∀ c ∈ part, closes c = false) :
        ∀ c ∈ part, (!closes c) = true := fun c mem => by rw [plain c mem]; rfl
    refine (append_run_inj (kept inner_plain) (kept fun c mem => (middle_plain c mem).2) ?_ ?_
      behind).1
    · rintro _ ⟨⟩
      rw [closing', Bool.not_true]
    · rintro _ ⟨⟩
      rw [closing, Bool.not_true]
  · -- a mark that opens further on has the closing one in the rest of the text
    rcases append_cons_cases (absent fun c mem => (middle_plain c mem).1) behind.symm with
      ⟨-, -, rfl⟩ | ⟨_, -, rfl⟩
    · exact absurd (by simp) not_in_tail
    · exact absurd (by simp) not_in_tail

end Enclosed

/-- The characters of texts put together with a separator between them are those of the separator
and of the texts. -/
theorem mem_of_mem_intercalate {separator : String} {parts : List String} {c : Char}
    (mem : c ∈ (String.intercalate separator parts).toList) :
    c ∈ separator.toList ∨ ∃ part ∈ parts, c ∈ part.toList := by
  induction parts with
  | nil => simp at mem
  | cons first parts ih =>
    by_cases last : parts = []
    · subst last
      rw [String.intercalate_singleton] at mem
      exact .inr ⟨first, List.mem_cons_self, mem⟩
    · rw [String.intercalate_cons_of_ne_nil last, String.toList_append, String.toList_append] at mem
      rcases List.mem_append.mp mem with front | behind
      · rcases List.mem_append.mp front with of_first | between
        · exact .inr ⟨first, List.mem_cons_self, of_first⟩
        · exact .inl between
      · refine (ih behind).imp_right ?_
        rintro ⟨part, part_mem, of_part⟩
        exact ⟨part, List.mem_cons_of_mem first part_mem, of_part⟩

end TraceInquest.Text
