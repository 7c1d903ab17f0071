import TraceInquest.Text.Digit

/-! # Numerals that can be read

* **`IsNumeral digits`** — a run of digits that is not too long.
* **`IsNumeral.readNumeral_eq`** — it is read as the number it denotes. -/

namespace TraceInquest.Text

/-- Whether a text is a run of digits that is not too long to be read. -/
structure IsNumeral (digits : List Char) : Prop where
  nonempty : digits ≠ []
  digit : ∀ c ∈ digits, isDigit c = true
  short : digits.length ≤ maxNumeralLength

instance (digits : List Char) : Decidable (IsNumeral digits) :=
  decidable_of_iff (digits ≠ [] ∧ digits.all isDigit = true ∧ digits.length ≤ maxNumeralLength)
    ⟨fun ⟨nonempty, all, short⟩ => ⟨nonempty, List.all_eq_true.mp all, short⟩,
      fun numeral => ⟨numeral.nonempty, List.all_eq_true.mpr numeral.digit, numeral.short⟩⟩

theorem not_mem_of_forall_isDigit {digits : List Char} (all : ∀ c ∈ digits, isDigit c = true)
    {c : Char} (no_digit : isDigit c = false) : c ∉ digits := by
  intro mem
  rw [all c mem] at no_digit
  exact absurd no_digit.symm Bool.false_ne_true

namespace IsNumeral

variable {digits : List Char}

theorem not_mem (numeral : IsNumeral digits) {c : Char} (no_digit : isDigit c = false) :
    c ∉ digits :=
  not_mem_of_forall_isDigit numeral.digit no_digit

/-- A numeral is read as the number it denotes. -/
theorem readNumeral_eq (numeral : IsNumeral digits) :
    readNumeral digits = .ok (numeralValue digits) :=
  readNumeral_eq_ok_iff.mpr ⟨numeral.short, rfl⟩

end IsNumeral

end TraceInquest.Text
