import TraceInquest.Proofs.Pattern.Keywords
import TraceInquest.Proofs.Pattern.Plain
import TraceInquest.Source.Declaration

/-! # The parts of source patterns

The patterns of a source file are put together from blanks, words and arguments. What these spell is
known once and for all, and so is what a pattern captures that captures one word.

* **`spells_blanks`**, **`spells_blanks1`**, **`spells_arguments`**, **`spells_wordName`** — what
  the parts spell.
* **`exists_word_of_mem_findAll`** — a find of a pattern that captures a word. -/

namespace TraceInquest

open Pattern

variable {text : List Char} {found : Found Captured}

/-! ## What the parts spell -/

theorem spells_blanks : blanks.Spells text ↔ ∀ c ∈ text, Text.isBlank c = true := Iff.rfl

theorem spells_blanks1 :
    blanks1.Spells text ↔ text ≠ [] ∧ ∀ c ∈ text, Text.isBlank c = true := spells_run

theorem spells_blank : blanks.Spells [' '] := spells_blanks.mpr (by decide)

theorem spells_no_blanks : blanks.Spells [] := spells_blanks.mpr (by decide)

theorem spells_blank1 : blanks1.Spells [' '] := spells_blanks1.mpr (by decide)

theorem spells_wordName (is_word : Text.IsWord text) : wordName.Spells text :=
  spells_run.mpr ⟨is_word.nonempty, is_word.all⟩

/-- Arguments are spelled up to the first closing parenthesis. -/
theorem spells_arguments :
    arguments.Spells text ↔ ∃ inner, text = '(' :: (inner ++ [')']) ∧ ')' ∉ inner := by
  constructor
  · rintro ⟨_, _, first, ⟨inner, _, all, ⟨_, _, last, rfl, rfl⟩, rfl⟩, rfl⟩
    rw [spells_literal.mp first, spells_literal.mp last]
    refine ⟨inner, rfl, fun mem => ?_⟩
    simpa using all _ mem
  · rintro ⟨inner, rfl, absent⟩
    refine ⟨['('], _, spells_literal.mpr rfl, ⟨inner, [')'], ?_, ⟨[')'], [], ?_, rfl, rfl⟩, rfl⟩, rfl⟩
    · intro c mem
      exact bne_iff_ne.mpr fun same => absent (same ▸ mem)
    · exact spells_literal.mpr rfl

theorem endsOutside_of_blanks1 (spelled : blanks1.Spells text) :
    text ≠ [] ∧ Text.EndsOutside text := by
  obtain ⟨nonempty, blank⟩ := spells_blanks1.mp spelled
  exact ⟨nonempty, Text.endsOutside_of_forall fun c mem =>
    Text.not_isWordChar_of_isBlank (blank c mem)⟩

/-! ## A captured word -/

/-- A find of a pattern that captures a word: what was passed over, what was taken in front of the
word, the word, what was taken behind it, and the rest. -/
theorem exists_word_of_mem_findAll {before after : List (Pattern Captured)}
    (silent : (seq after).captureBodies = [])
    (find : found ∈ (seq (before ++ wordName :: after)).findAll text) :
    ∃ skipped taken later rest, text = skipped ++ (taken ++ (found.captured .name ++ (later ++ rest))) ∧
      Text.IsWord (found.captured .name) ∧ (seq before).Spells taken ∧ (seq after).Spells later ∧
      ∃ middle ∈ (seq before).stops
          (cursorBehind skipped (taken ++ (found.captured .name ++ (later ++ rest)))),
        middle.rest = found.captured .name ++ (later ++ rest) := by
  obtain ⟨skipped, is_behind⟩ := exists_isBehind_of_mem_findAll find
  obtain ⟨taken, later, rest, text_eq, nonempty, all, spelled⟩ :=
    exists_run_of_isBehind (by simp [silent]) is_behind
  exact ⟨skipped, taken, later, rest, text_eq, ⟨nonempty, all⟩, spelled⟩

end TraceInquest
