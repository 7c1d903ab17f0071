import TraceInquest.Proofs.Text.Blank
import TraceInquest.Proofs.Text.Parts

/-! # Words in a text

A word is a run of word characters. Where the last word of a text is, and where a keyword stands as
a word of its own, can be read off the places at which the text is cut.

* **`IsWord`**, **`EndsOutside`** — one word, and a text behind which a word can begin.
* **`lastWord_append`** — the last word of a text, whatever stands behind it.
* **`KeywordBefore keyword accepts text`** — a keyword with blanks and some character behind it;
  `of_append_cons`, `of_append_blank` and `of_word_blank` say where it stands in a text that is cut
  in two. -/

namespace TraceInquest.Text

variable {front word gap : List Char}

/-! ## One word -/

/-- Whether a text is one word. -/
structure IsWord (text : List Char) : Prop where
  nonempty : text ≠ []
  all : ∀ c ∈ text, isWordChar c = true

/-- Whether a word can begin behind a text. -/
def EndsOutside (text : List Char) : Prop := ∀ c ∈ text.getLast?, isWordChar c = false

theorem endsOutside_nil : EndsOutside [] := by
  rintro _ ⟨⟩

theorem endsOutside_of_forall {text : List Char} (refused : ∀ c ∈ text, isWordChar c = false) :
    EndsOutside text := fun c last => refused c (List.mem_of_getLast? last)

/-- Only the end of a text counts. -/
theorem EndsOutside.append_left {text : List Char} (outside : EndsOutside text)
    (nonempty : text ≠ []) (front : List Char) : EndsOutside (front ++ text) := by
  intro c last
  rw [List.getLast?_append_of_ne_nil front nonempty] at last
  exact outside c last

namespace IsWord

theorem not_mem (is_word : IsWord word) {c : Char} (refused : isWordChar c = false) : c ∉ word := by
  intro mem
  rw [is_word.all c mem] at refused
  cases refused

theorem not_isBlank (is_word : IsWord word) : ∀ c ∈ word, isBlank c = false :=
  fun c mem => not_isBlank_of_isWordChar (is_word.all c mem)

theorem isSolid (is_word : IsWord word) : IsSolid word := ⟨is_word.nonempty, is_word.not_isBlank⟩

theorem exists_getLast? (is_word : IsWord word) :
    ∃ c, word.getLast? = some c ∧ isWordChar c = true :=
  ⟨word.getLast is_word.nonempty, List.getLast?_eq_some_getLast is_word.nonempty,
    is_word.all _ (List.getLast_mem is_word.nonempty)⟩

/-- A word behind some text begins with it if the text ends within a word. -/
theorem eq_nil_of_append (is_word : IsWord (front ++ word)) (outside : EndsOutside front) :
    front = [] := by
  cases last : front.getLast? with
  | none => exact List.getLast?_eq_none_iff.mp last
  | some c =>
    have refused := outside c last
    rw [is_word.all c (List.mem_append_left word (List.mem_of_getLast? last))] at refused
    cases refused

end IsWord

/-- The last word of a text. -/
def lastWord (text : List Char) : List Char :=
  ((text.reverse.dropWhile fun c => !isWordChar c).takeWhile isWordChar).reverse

/-- A word is the last one if no word characters follow and it does not begin further in front. -/
theorem lastWord_append (is_word : IsWord word) (outside : EndsOutside front)
    (behind : ∀ c ∈ gap, isWordChar c = false) : lastWord (front ++ word ++ gap) = word := by
  obtain ⟨last, last_eq, last_word⟩ := is_word.exists_getLast?
  obtain ⟨others, word_eq⟩ := List.getLast?_eq_some_iff.mp last_eq
  have passed : ∀ c ∈ gap.reverse, (!isWordChar c) = true := by
    intro c mem
    rw [behind c (List.mem_reverse.mp mem)]
    rfl
  have dropped : ((front ++ word ++ gap).reverse.dropWhile fun c => !isWordChar c) =
      word.reverse ++ front.reverse := by
    rw [List.reverse_append, List.dropWhile_append_of_pos passed, List.reverse_append, word_eq,
      List.reverse_append, List.reverse_singleton, List.singleton_append, List.cons_append,
      List.dropWhile_cons_of_neg (by simp [last_word])]
  have front_taken : front.reverse.takeWhile isWordChar = [] := by
    cases front_eq : front.reverse with
    | nil => rfl
    | cons c rest =>
      have refused := outside c (by rw [← List.head?_reverse, front_eq]; rfl)
      exact List.takeWhile_cons_of_neg (by simp [refused])
  have taken : ∀ c ∈ word.reverse, isWordChar c = true :=
    fun c mem => is_word.all c (List.mem_reverse.mp mem)
  rw [lastWord, dropped, List.takeWhile_append_of_pos taken, front_taken, List.append_nil,
    List.reverse_reverse]

/-- The blanks behind a word are the last ones of the text. -/
theorem stripRight_append_word (is_word : IsWord word) (blank : ∀ c ∈ gap, isBlank c = true) :
    stripRight (front ++ word ++ gap) = front ++ word := by
  obtain ⟨last, last_eq, last_word⟩ := is_word.exists_getLast?
  rw [stripRight_append_blanks blank, stripRight_of_getLast?]
  rw [List.getLast?_append, last_eq, Option.some_or]
  rintro _ ⟨⟩
  exact not_isBlank_of_isWordChar last_word

/-- A text does not end with a word and blanks if its last character in front of the blanks is not
part of a word. -/
theorem append_word_ne (is_word : IsWord word) (blank : ∀ c ∈ gap, isBlank c = true)
    {other gap' : List Char} {c : Char} (c_blank : isBlank c = false)
    (c_word : isWordChar c = false) (blank' : ∀ d ∈ gap', isBlank d = true) :
    front ++ word ++ gap ≠ other ++ c :: gap' := by
  intro same
  obtain ⟨last, last_eq, last_word⟩ := is_word.exists_getLast?
  have other_left : stripRight (other ++ c :: gap') = other ++ [c] := by
    rw [List.append_cons, stripRight_append_blanks blank', stripRight_of_getLast?]
    rw [List.getLast?_concat]
    rintro _ ⟨⟩
    exact c_blank
  rw [← same, stripRight_append_word is_word blank] at other_left
  have ends := congrArg List.getLast? other_left
  rw [List.getLast?_append, last_eq, Option.some_or, List.getLast?_concat, Option.some_inj] at ends
  rw [← ends, last_word] at c_word
  cases c_word

/-! ## Keywords -/

/-- Whether a keyword stands in a text as a word of its own, with blanks and some character behind
it. -/
def KeywordBefore (keyword : String) (accepts : Char → Bool) (text : List Char) : Prop :=
  ∃ front gap c back, text = front ++ ((keyword.toList ++ gap ++ [c]) ++ back) ∧
    EndsOutside front ∧ gap ≠ [] ∧ (∀ d ∈ gap, isBlank d = true) ∧ accepts c = true

namespace KeywordBefore

variable {keyword : String} {accepts : Char → Bool} {text before behind : List Char}

/-- The keyword is a part of the text. -/
theorem infix_text (stands : KeywordBefore keyword accepts text) : keyword.toList <:+: text := by
  obtain ⟨front, gap, c, back, rfl, -⟩ := stands
  exact ⟨front, gap ++ [c] ++ back, by simp only [List.append_assoc]⟩

/-- There are blanks in the text. -/
theorem exists_blank (stands : KeywordBefore keyword accepts text) :
    ∃ c ∈ text, isBlank c = true := by
  obtain ⟨front, gap, c, back, rfl, -, nonempty, blank, -⟩ := stands
  obtain ⟨b, rest, rfl⟩ := List.exists_cons_of_ne_nil nonempty
  exact ⟨b, by simp, blank b List.mem_cons_self⟩

/-- Without blanks there is no keyword with something behind it. -/
theorem not_of_solid (solid : ∀ c ∈ text, isBlank c = false) : ¬KeywordBefore keyword accepts text := by
  intro stands
  obtain ⟨c, mem, blank⟩ := stands.exists_blank
  rw [solid c mem] at blank
  cases blank

theorem not_of_forall_isWordChar (all : ∀ c ∈ text, isWordChar c = true) :
    ¬KeywordBefore keyword accepts text :=
  not_of_solid fun c mem => not_isBlank_of_isWordChar (all c mem)

/-- A keyword stands on one side of a character that belongs neither to it nor to what follows. -/
theorem of_append_cons {mark : Char} (absent : mark ∉ keyword.toList)
    (mark_blank : isBlank mark = false) (mark_refused : accepts mark = false)
    (stands : KeywordBefore keyword accepts (before ++ mark :: behind)) :
    KeywordBefore keyword accepts before ∨ KeywordBefore keyword accepts behind := by
  obtain ⟨front, gap, c, back, same, outside, nonempty, blank, accepted⟩ := stands
  have part_absent : mark ∉ keyword.toList ++ gap ++ [c] := by
    simp only [List.mem_append, List.mem_singleton, not_or]
    refine ⟨⟨absent, fun mem => ?_⟩, fun is_next => ?_⟩
    · rw [blank mark mem] at mark_blank
      cases mark_blank
    · rw [is_next, accepted] at mark_refused
      cases mark_refused
  rcases append_eq_append_cons part_absent same.symm with ⟨rest, rfl, -⟩ | ⟨rest, rfl, rfl⟩
  · exact .inl ⟨front, gap, c, rest, List.append_assoc .., outside, nonempty, blank, accepted⟩
  · refine .inr ⟨rest, gap, c, back, rfl, fun d last => outside d ?_, nonempty, blank, accepted⟩
    rw [List.getLast?_append, List.getLast?_cons, Option.mem_def.mp last]
    rfl

/-- A keyword stands on one side of a blank, or it ends the text in front of the blank and what
follows begins the text behind it. -/
theorem of_append_blank {mark : Char} (absent : mark ∉ keyword.toList)
    (mark_refused : accepts mark = false)
    (stands : KeywordBefore keyword accepts (before ++ mark :: behind)) :
    KeywordBefore keyword accepts before ∨ KeywordBefore keyword accepts behind ∨
      (∃ front gap, before = front ++ keyword.toList ++ gap ∧ EndsOutside front ∧
        ∀ d ∈ gap, isBlank d = true) ∧
      ∃ gap c back, behind = gap ++ c :: back ∧ (∀ d ∈ gap, isBlank d = true) ∧ accepts c = true := by
  obtain ⟨front, gap, c, back, same, outside, nonempty, blank, accepted⟩ := stands
  have c_ne : c ≠ mark := by
    rintro rfl
    rw [accepted] at mark_refused
    cases mark_refused
  have cut : front ++ (keyword.toList ++ (gap ++ c :: back)) = before ++ mark :: behind := by
    rw [same]
    simp only [List.append_assoc, List.singleton_append]
  rcases append_eq_append_cons absent cut with ⟨rest, rfl, rest_eq⟩ | ⟨rest, rfl, rfl⟩
  · -- the blank is behind the keyword, so it is one of those behind it or further on
    rcases List.append_eq_append_iff.mp rest_eq with ⟨more, rfl, more_eq⟩ | ⟨more, rfl, more_eq⟩
    · cases more with
      | nil => exact absurd (List.cons.inj more_eq).1 c_ne
      | cons d more =>
        obtain ⟨rfl, -⟩ := List.cons.inj more_eq
        refine .inl ⟨front, gap, c, more, ?_, outside, nonempty, blank, accepted⟩
        simp only [List.append_assoc, List.singleton_append]
    · cases more with
      | nil => exact absurd (List.cons.inj more_eq).1.symm c_ne
      | cons d more =>
        obtain ⟨rfl, rfl⟩ := List.cons.inj more_eq
        obtain ⟨rest_blank, more_blank⟩ := List.forall_mem_append.mp blank
        exact .inr (.inr ⟨⟨front, rest, rfl, outside, rest_blank⟩, more, c, back, rfl,
          (List.forall_mem_cons.mp more_blank).2, accepted⟩)
  · refine .inr (.inl ⟨rest, gap, c, back, ?_, fun d last => outside d ?_, nonempty, blank, accepted⟩)
    · simp only [List.append_assoc, List.singleton_append]
    · rw [List.getLast?_append, List.getLast?_cons, Option.mem_def.mp last]
      rfl

/-- A keyword is behind the blank that follows a word, or the word ends with it. -/
theorem of_word_blank {word : List Char} (solid : ∀ c ∈ word, isBlank c = false)
    (absent : ' ' ∉ keyword.toList) (kept : ∀ c, accepts c = true → isBlank c = false)
    (stands : KeywordBefore keyword accepts (word ++ ' ' :: behind)) :
    KeywordBefore keyword accepts behind ∨
      keyword.toList <:+ word ∧ ∃ c ∈ (stripLeft behind).head?, accepts c = true := by
  have refused : accepts ' ' = false := Bool.eq_false_iff.mpr fun accepted =>
    absurd (kept ' ' accepted) (by decide)
  rcases stands.of_append_blank absent refused with in_word | is_behind |
    ⟨⟨front, gap, word_eq, -, blank⟩, gap', c, back, rfl, blank', accepted⟩
  · exact absurd in_word (not_of_solid solid)
  · exact .inl is_behind
  · -- there are no blanks at the end of the word
    have no_gap : gap = [] := by
      rw [List.eq_nil_iff_forall_not_mem]
      intro d mem
      have word_blank := solid d (by rw [word_eq]; exact List.mem_append_right _ mem)
      rw [blank d mem] at word_blank
      cases word_blank
    rw [no_gap, List.append_nil] at word_eq
    refine .inr ⟨⟨front, word_eq.symm⟩, c, ?_, accepted⟩
    rw [stripLeft_append_cons blank' (kept c accepted)]
    rfl

end KeywordBefore

end TraceInquest.Text
