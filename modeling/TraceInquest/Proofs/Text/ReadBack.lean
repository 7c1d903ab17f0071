import TraceInquest.Proofs.Text.Lines
import TraceInquest.Proofs.Text.Parts

/-! # What can be read back from a text

The parts of which a text was put together can be read back from it, if what stands between them
cannot occur in them.

* **`not_mem_toString_int`** — only digits and a sign occur in a shown integer.
* **`append_inj_of_first`**, **`append_inj_of_last`** — a text is cut in one way only at the first,
  and at the last, of some character. -/

namespace TraceInquest.Text

/-! ## Shown integers -/

/-- Only digits occur in a shown natural number. -/
theorem not_mem_toString_nat {c : Char} (no_digit : c.isDigit = false) (n : Nat) :
    c ∉ (toString n).toList := by
  rw [Nat.toString_eq_repr, Nat.toList_repr]
  intro mem
  have digit := Nat.isDigit_of_mem_toDigits (by decide) (by decide) mem
  rw [no_digit] at digit
  exact absurd digit (by decide)

/-- Only digits and a sign occur in a shown integer. -/
theorem not_mem_toString_int {c : Char} (no_digit : c.isDigit = false) (no_sign : c ≠ '-')
    (n : Int) : c ∉ (toString n).toList := by
  rw [Int.toString_eq_repr, Int.repr_eq_if]
  split
  · exact not_mem_toString_nat no_digit n.toNat
  · rw [String.toList_append, show "-".toList = ['-'] from rfl]
    intro mem
    rcases List.mem_cons.mp mem with sign | digit
    · exact no_sign sign
    · exact not_mem_toString_nat no_digit (-n).toNat digit

@[simp] theorem isLine_repr_nat (n : Nat) : IsLine n.repr := not_mem_toString_nat (by decide) n

@[simp] theorem isLine_repr_int (n : Int) : IsLine n.repr :=
  not_mem_toString_int (by decide) (by decide) n

/-! ## Cutting in one way -/

section Cutting

variable {first first' second second' mark : String} {c : Char}

/-- A text is cut in one way only at a mark that begins with a character which does not occur
before it. -/
theorem append_inj_of_first (starts : mark.toList.head? = some c) (absent : c ∉ first.toList)
    (absent' : c ∉ first'.toList) (same : first ++ mark ++ second = first' ++ mark ++ second') :
    first = first' ∧ second = second' := by
  obtain ⟨rest, mark_eq⟩ := List.head?_eq_some_iff.mp starts
  have chars := congrArg String.toList same
  simp only [String.toList_append, mark_eq, List.append_assoc, List.cons_append] at chars
  obtain ⟨first_eq, behind_eq⟩ := append_cons_inj absent absent' chars
  rw [List.append_cancel_left_eq] at behind_eq
  exact ⟨String.toList_inj.mp first_eq, String.toList_inj.mp behind_eq⟩

/-- A text is cut in one way only at a mark that ends with a character which does not occur behind
it. -/
theorem append_inj_of_last (ends : mark.toList.getLast? = some c) (absent : c ∉ second.toList)
    (absent' : c ∉ second'.toList) (same : first ++ mark ++ second = first' ++ mark ++ second') :
    first = first' ∧ second = second' := by
  obtain ⟨rest, mark_eq⟩ := List.getLast?_eq_some_iff.mp ends
  have chars := congrArg String.toList same
  simp only [String.toList_append, mark_eq, List.append_assoc, List.singleton_append] at chars
  rw [← List.append_assoc, ← List.append_assoc] at chars
  obtain ⟨before_eq, second_eq⟩ := append_cons_inj_of_last absent absent' chars
  rw [List.append_cancel_right_eq] at before_eq
  exact ⟨String.toList_inj.mp before_eq, String.toList_inj.mp second_eq⟩

/-- Texts that begin with different characters are different. -/
theorem append_ne_append_of_head {c' : Char} (starts : first.toList.head? = some c)
    (starts' : first'.toList.head? = some c') (differ : c ≠ c') :
    first ++ second ≠ first' ++ second' := by
  obtain ⟨rest, first_eq⟩ := List.head?_eq_some_iff.mp starts
  obtain ⟨rest', first_eq'⟩ := List.head?_eq_some_iff.mp starts'
  intro same
  have chars := congrArg String.toList same
  rw [String.toList_append, String.toList_append, first_eq, first_eq', List.cons_append,
    List.cons_append, List.cons.injEq] at chars
  exact differ chars.1

end Cutting

end TraceInquest.Text
