import Mathlib.Data.List.Infix

/-! # How texts start and end

* **`startsWith_append_eq_false`** — a text that starts with another character does not start with
  a mark.
* **`StartUnlike`**, **`startsWith_eq_false_of_unlike`** — a text that starts in one way does not
  start in another one.
* **`EndUnlike`**, **`endsWith_eq_false_of_unlike`** — the same for the ends of texts. -/

namespace TraceInquest.Text

variable {text front back mark : String} {c d : Char}

/-! ## Starts -/

theorem startsWith_append (mark text : String) : (mark ++ text).startsWith mark = true := by
  rw [String.startsWith_string_iff, String.toList_append]
  exact List.prefix_append _ _

theorem startsWith_self (text : String) : text.startsWith text = true := by
  rw [String.startsWith_string_iff]

/-- A text that starts with another character does not start with the mark. -/
theorem startsWith_eq_false (starts : mark.toList.head? = some c)
    (differs : text.toList.head? ≠ some c) : text.startsWith mark = false := by
  rw [String.startsWith_string_eq_false_iff]
  rintro ⟨rest, text_eq⟩
  rw [← text_eq, List.head?_append, starts, Option.some_or] at differs
  exact differs rfl

theorem startsWith_eq_false_of_ne (starts : mark.toList.head? = some c)
    (starts' : text.toList.head? = some d) (differ : c ≠ d) : text.startsWith mark = false := by
  refine startsWith_eq_false starts ?_
  rw [starts']
  exact fun same => differ (Option.some_inj.mp same).symm

theorem startsWith_append_eq_false (starts : mark.toList.head? = some c)
    (starts' : front.toList.head? = some d) (differ : c ≠ d) :
    (front ++ text).startsWith mark = false := by
  refine startsWith_eq_false_of_ne starts ?_ differ
  rw [String.toList_append, List.head?_append, starts', Option.some_or]

/-- Whether neither of two texts starts with the other. -/
def StartUnlike (front other : String) : Prop :=
  ¬front.toList <+: other.toList ∧ ¬other.toList <+: front.toList

instance (front other : String) : Decidable (StartUnlike front other) :=
  inferInstanceAs (Decidable (_ ∧ _))

/-- A text that starts in one way does not start in another one. -/
theorem StartUnlike.not_prefix (unlike : StartUnlike front mark) {text : List Char}
    (starts : front.toList <+: text) : ¬mark.toList <+: text := by
  intro marked
  rcases List.prefix_or_prefix_of_prefix starts marked with shorter | longer
  · exact unlike.1 shorter
  · exact unlike.2 longer

theorem startsWith_eq_false_of_unlike (starts : text.startsWith front = true)
    (unlike : StartUnlike front mark) : text.startsWith mark = false := by
  rw [String.startsWith_string_eq_false_iff]
  exact unlike.not_prefix (String.startsWith_string_iff.mp starts)

/-! ## Ends -/

theorem endsWith_iff : text.endsWith back = true ↔ back.toList <:+ text.toList := by
  rw [← String.endsWith_toSlice, String.Slice.endsWith_string_iff, String.copy_toSlice]

theorem endsWith_append (text mark : String) : (text ++ mark).endsWith mark = true := by
  rw [endsWith_iff, String.toList_append]
  exact List.suffix_append _ _

/-- Every text ends with the empty one. -/
theorem endsWith_empty (text : String) : text.endsWith "" = true := by
  rw [endsWith_iff]
  exact List.nil_suffix

/-- Whether neither of two texts ends with the other. -/
def EndUnlike (back other : String) : Prop :=
  ¬back.toList <:+ other.toList ∧ ¬other.toList <:+ back.toList

instance (back other : String) : Decidable (EndUnlike back other) :=
  inferInstanceAs (Decidable (_ ∧ _))

/-- A text that ends in one way does not end in another one. -/
theorem endsWith_eq_false_of_unlike (ends : text.endsWith back = true)
    (unlike : EndUnlike back mark) : text.endsWith mark = false := by
  rw [← Bool.not_eq_true, endsWith_iff]
  intro marked
  rcases List.suffix_or_suffix_of_suffix (endsWith_iff.mp ends) marked with shorter | longer
  · exact unlike.1 shorter
  · exact unlike.2 longer

end TraceInquest.Text
