import Mathlib.Data.List.DropRight
import Mathlib.Data.List.TakeWhile
import TraceInquest.Proofs.Text.Parts
import TraceInquest.Text.Alphanumeric
import TraceInquest.Text.Blank
import TraceInquest.Text.Digit

/-! # Texts without blanks around them

* **`strip_infix`** — what is left of a text is a part of it.
* **`stripLeft_append`**, **`stripRight_append`** — blanks are only looked for up to the first
  other character.
* **`strip_of_ends`** — a text without blanks at its two ends is left as it is.
* **`IsPadded`**, **`Respaced`** — blanks around a text, which change nothing.
* **`IsGap`** — blanks within a line.
* **`forall_isBlank`** — what can be checked of all blanks at once: a blank is neither part of a
  word nor a digit. -/

namespace TraceInquest.Text

theorem stripRight_isPrefix (text : List Char) : stripRight text <+: text := by
  rw [stripRight, ← List.reverse_suffix, List.reverse_reverse]
  exact List.dropWhile_suffix isBlank

/-- What is left of a text is a part of it. -/
theorem strip_infix (text : List Char) : strip text <:+: text :=
  (stripRight_isPrefix _).isInfix.trans (List.dropWhile_suffix isBlank).isInfix

/-- Blanks in front of a text are left out. -/
theorem stripLeft_append {blanks : List Char} (all : ∀ c ∈ blanks, isBlank c = true)
    (text : List Char) : stripLeft (blanks ++ text) = stripLeft text := by
  rw [stripLeft, List.dropWhile_append_of_pos all, stripLeft]

theorem strip_append {blanks : List Char} (all : ∀ c ∈ blanks, isBlank c = true)
    (text : List Char) : strip (blanks ++ text) = strip text := by
  rw [strip, stripLeft_append all, strip]

/-- Nothing is left out in front of another character. -/
theorem stripLeft_of_head? {text : List Char} (starts : ∀ c ∈ text.head?, isBlank c = false) :
    stripLeft text = text := by
  cases text with
  | nil => rfl
  | cons c rest =>
    have kept := starts c rfl
    rw [stripLeft, List.dropWhile_cons_of_neg (by rw [kept]; exact Bool.false_ne_true)]

theorem stripLeft_append_cons {blanks : List Char} (all : ∀ c ∈ blanks, isBlank c = true) {c : Char}
    (kept : isBlank c = false) (rest : List Char) : stripLeft (blanks ++ c :: rest) = c :: rest := by
  rw [stripLeft_append all, stripLeft_of_head?]
  rintro _ ⟨⟩
  exact kept

theorem stripLeft_space_cons {c : Char} (kept : isBlank c = false) (rest : List Char) :
    stripLeft (' ' :: c :: rest) = c :: rest :=
  @stripLeft_append_cons [' '] (by decide) c kept rest

theorem mem_stripRight {text : List Char} {c : Char} (mem : c ∈ text)
    (kept : isBlank c = false) : c ∈ stripRight text := by
  have mem_reverse := List.mem_reverse.mpr mem
  rw [← @List.takeWhile_append_dropWhile _ isBlank text.reverse, List.mem_append] at mem_reverse
  rcases mem_reverse with blank | left
  · rw [List.mem_takeWhile_imp blank] at kept
    exact absurd kept.symm Bool.false_ne_true
  · exact List.mem_reverse.mpr left

/-- In front of a text with other characters than blanks nothing is left out. -/
theorem stripRight_append {text : List Char} {c : Char} (mem : c ∈ text)
    (kept : isBlank c = false) (front : List Char) :
    stripRight (front ++ text) = front ++ stripRight text := by
  have left : text.reverse.dropWhile isBlank ≠ [] := by
    intro none_left
    have mem_left := mem_stripRight mem kept
    rw [stripRight, none_left] at mem_left
    exact absurd mem_left (List.not_mem_nil)
  rw [stripRight, List.reverse_append, List.dropWhile_append, if_neg (by simpa using left),
    List.reverse_append, List.reverse_reverse, stripRight]

/-- Nothing is left out behind another character. -/
theorem stripRight_of_getLast? {text : List Char}
    (ends : ∀ c ∈ text.getLast?, isBlank c = false) : stripRight text = text := by
  have kept : stripLeft text.reverse = text.reverse :=
    stripLeft_of_head? (by rwa [List.head?_reverse])
  rw [stripLeft] at kept
  rw [stripRight, kept, List.reverse_reverse]

/-- Blanks behind a text are left out. -/
theorem stripRight_append_blanks {blanks : List Char} (all : ∀ c ∈ blanks, isBlank c = true)
    (text : List Char) : stripRight (text ++ blanks) = stripRight text := by
  have all_reverse : ∀ c ∈ blanks.reverse, isBlank c = true :=
    fun c mem => all c (List.mem_reverse.mp mem)
  rw [stripRight, List.reverse_append, List.dropWhile_append_of_pos all_reverse, stripRight]

/-- A text without blanks at its two ends is left as it is. -/
theorem strip_of_ends {text : List Char} (starts : ∀ c ∈ text.head?, isBlank c = false)
    (ends : ∀ c ∈ text.getLast?, isBlank c = false) : strip text = text := by
  rw [strip, stripLeft_of_head? starts, stripRight_of_getLast? ends]

/-- Whether a text is not empty and has no blanks at its two ends. -/
structure IsTrimmed (text : List Char) : Prop where
  nonempty : text ≠ []
  first : ∀ c ∈ text.head?, isBlank c = false
  last : ∀ c ∈ text.getLast?, isBlank c = false

/-- Only the two ends of a text count. -/
theorem isTrimmed_append {first middle last : List Char} (first_ne : first ≠ [])
    (starts : ∀ c ∈ first.head?, isBlank c = false) (last_ne : last ≠ [])
    (ends : ∀ c ∈ last.getLast?, isBlank c = false) : IsTrimmed (first ++ (middle ++ last)) := by
  refine ⟨by simp [first_ne], ?_, ?_⟩
  · rwa [List.head?_append_of_ne_nil first first_ne]
  · rwa [← List.append_assoc, List.getLast?_append_of_ne_nil _ last_ne]

/-- Whether a text is not empty and holds no blanks. -/
structure IsSolid (text : List Char) : Prop where
  nonempty : text ≠ []
  all : ∀ c ∈ text, isBlank c = false

instance (text : List Char) : Decidable (IsSolid text) :=
  decidable_of_iff (text ≠ [] ∧ ∀ c ∈ text, isBlank c = false)
    ⟨fun ⟨nonempty, all⟩ => ⟨nonempty, all⟩, fun ⟨nonempty, all⟩ => ⟨nonempty, all⟩⟩

/-- The blanks around a text without blanks at its two ends are left out. -/
theorem IsTrimmed.strip_eq {before text after : List Char} (trimmed : IsTrimmed text)
    (before_blank : ∀ c ∈ before, isBlank c = true) (after_blank : ∀ c ∈ after, isBlank c = true) :
    strip (before ++ (text ++ after)) = text := by
  have starts : ∀ c ∈ (text ++ after).head?, isBlank c = false := by
    rw [List.head?_append_of_ne_nil text trimmed.nonempty]
    exact trimmed.first
  rw [strip_append before_blank, strip, stripLeft_of_head? starts,
    stripRight_append_blanks after_blank, stripRight_of_getLast? trimmed.last]

/-- What is left begins with another character. -/
theorem head?_stripLeft (text : List Char) : ∀ c ∈ (stripLeft text).head?, isBlank c = false := by
  intro c first
  have kept := List.head?_dropWhile_not isBlank text
  rw [stripLeft, Option.mem_def] at first
  rwa [first] at kept

/-- What is left ends with another character. -/
theorem getLast?_stripRight (text : List Char) :
    ∀ c ∈ (stripRight text).getLast?, isBlank c = false := by
  rw [stripRight, List.getLast?_reverse]
  exact head?_stripLeft text.reverse

theorem getLast?_strip (text : List Char) : ∀ c ∈ (strip text).getLast?, isBlank c = false :=
  getLast?_stripRight _

theorem head?_strip (text : List Char) : ∀ c ∈ (strip text).head?, isBlank c = false := by
  intro c first
  obtain ⟨rest, left_eq⟩ := stripRight_isPrefix (stripLeft text)
  refine head?_stripLeft text c ?_
  rw [← left_eq, List.head?_append]
  rw [strip, Option.mem_def] at first
  rw [first]
  rfl

/-- Blanks that have been left out are not left out again. -/
theorem strip_stripLeft (text : List Char) : strip (stripLeft text) = strip text := by
  rw [strip, strip, stripLeft, stripLeft, List.dropWhile_idempotent]

theorem mem_stripLeft {text : List Char} {c : Char} (mem : c ∈ text)
    (kept : isBlank c = false) : c ∈ stripLeft text := by
  rw [← @List.takeWhile_append_dropWhile _ isBlank text, List.mem_append] at mem
  rcases mem with blank | left
  · rw [List.mem_takeWhile_imp blank] at kept
    exact absurd kept.symm Bool.false_ne_true
  · exact left

/-- Other characters than blanks are never left out. -/
theorem mem_strip {text : List Char} {c : Char} (mem : c ∈ text) (kept : isBlank c = false) :
    c ∈ strip text :=
  mem_stripRight (mem_stripLeft mem kept) kept

/-! ## Blanks around a text -/

/-- Whether a text is another one with blanks around it. -/
def IsPadded (core text : List Char) : Prop :=
  ∃ before after, text = before ++ (core ++ after) ∧ (∀ c ∈ before, isBlank c = true) ∧
    ∀ c ∈ after, isBlank c = true

/-- The blanks around a text are left out, whatever it consists of. -/
theorem IsPadded.strip_eq {core text : List Char} (padded : IsPadded core text) :
    strip text = strip core := by
  obtain ⟨before, after, rfl, before_blank, after_blank⟩ := padded
  rw [strip_append before_blank, strip, strip, stripLeft, List.dropWhile_append]
  split
  · -- a text of blanks alone is left out together with those behind it
    rename_i all_blank
    have none_left : after.dropWhile isBlank = [] := List.dropWhile_eq_nil_iff.mpr after_blank
    rw [none_left, stripLeft, List.isEmpty_iff.mp all_blank]
  · exact stripRight_append_blanks after_blank _

/-- Whether two texts are the same apart from blanks around them. -/
def Respaced (text other : List Char) : Prop := ∃ core, IsPadded core text ∧ IsPadded core other

theorem Respaced.strip_eq {text other : List Char} (respaced : Respaced text other) :
    strip text = strip other := by
  obtain ⟨core, padded, other_padded⟩ := respaced
  rw [padded.strip_eq, other_padded.strip_eq]

/-! ## Blanks within a line -/

/-- Whether a text consists of blanks within a line. -/
def IsGap (text : List Char) : Prop := ∀ c ∈ text, isBlank c = true ∧ c ≠ '\n'

instance (text : List Char) : Decidable (IsGap text) :=
  decidable_of_iff (text.all fun c => isBlank c && c != '\n') (by simp [IsGap])

namespace IsGap

variable {gap : List Char}

theorem blank (is_gap : IsGap gap) : ∀ c ∈ gap, isBlank c = true := fun c mem => (is_gap c mem).1

theorem not_mem_of_kept (is_gap : IsGap gap) {c : Char} (kept : isBlank c = false) : c ∉ gap := by
  intro mem
  rw [is_gap.blank c mem] at kept
  exact absurd kept.symm Bool.false_ne_true

end IsGap

/-! ## All blanks -/

/-- The code points of the blanks. -/
def blankCodes : List Nat :=
  List.range' 9 5 ++ List.range' 28 5 ++ [0x85, 0xA0, 0x1680] ++ List.range' 0x2000 11 ++
    [0x2028, 0x2029, 0x202F, 0x205F, 0x3000]

theorem toNat_mem_blankCodes {c : Char} (blank : isBlank c = true) : c.toNat ∈ blankCodes := by
  simp only [blankCodes, List.mem_append, List.mem_cons, List.mem_range'_1, List.not_mem_nil,
    or_false]
  rw [isBlank] at blank
  split at blank <;>
    simp only [Bool.or_eq_true, Bool.and_eq_true, beq_iff_eq, decide_eq_true_eq] at blank <;> omega

/-- What holds at each of the code points holds of all blanks. -/
theorem forall_isBlank {p : Char → Prop} (table : ∀ n ∈ blankCodes, p (Char.ofNat n)) {c : Char}
    (blank : isBlank c = true) : p c := by
  have holds := table c.toNat (toNat_mem_blankCodes blank)
  rwa [Char.ofNat_toNat] at holds

/-- A class of characters that holds none of the code points of blanks holds no blank. -/
theorem not_isBlank_of {p : Char → Bool} (table : ∀ n ∈ blankCodes, p (Char.ofNat n) = false)
    {c : Char} (holds : p c = true) : isBlank c = false := by
  by_contra blank
  rw [Bool.not_eq_false] at blank
  have absent := @forall_isBlank (p · = false) table c blank
  rw [holds] at absent
  exact absurd absent.symm Bool.false_ne_true

/-- A digit is no blank. -/
theorem not_isBlank_of_isDigit {c : Char} (digit : isDigit c = true) : isBlank c = false :=
  not_isBlank_of (by decide +kernel) digit

/-- No part of a word is a blank. -/
theorem not_isBlank_of_isWordChar {c : Char} (word : isWordChar c = true) : isBlank c = false :=
  not_isBlank_of (by decide +kernel) word

/-- A blank is part of no word. -/
theorem not_isWordChar_of_isBlank {c : Char} (blank : isBlank c = true) : isWordChar c = false := by
  by_contra word
  rw [not_isBlank_of_isWordChar (Bool.not_eq_false _ ▸ word)] at blank
  exact absurd blank Bool.false_ne_true

end TraceInquest.Text
