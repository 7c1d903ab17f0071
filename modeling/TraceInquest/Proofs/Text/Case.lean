import TraceInquest.Text.Case

/-! # Lower case beyond ASCII

A lower case that knows all scripts differs from that of the ASCII letters, but never in a way that
makes a text out of ASCII characters: only the ASCII capitals and the Kelvin sign have a lower case
in ASCII.

* **`IsLowerCase text lowered`** — what the lower case of a text can be.
* **`isLowerCase_map_lowerAscii`** — the lower case of the ASCII letters is one.
* **`IsLowerCase.eq_iff`** — where only ASCII is asked for, each of them is as good. -/

namespace TraceInquest.Text

/-- What the lower case of a text can be: an ASCII character has the one that it has in ASCII, the
Kelvin sign has `k`, and of every other character something that is not ASCII is left. -/
inductive IsLowerCase : List Char → List Char → Prop where
  | nil : IsLowerCase [] []
  | ascii {c : Char} {text lowered : List Char} (is_ascii : c.toNat < 128)
      (rest : IsLowerCase text lowered) : IsLowerCase (c :: text) (c.toLower :: lowered)
  | kelvin {text lowered : List Char} (rest : IsLowerCase text lowered) :
      IsLowerCase ('\u212A' :: text) ('k' :: lowered)
  | other {c : Char} {part text lowered : List Char} (beyond : 128 ≤ c.toNat)
      (no_kelvin : c ≠ '\u212A') (left : ∃ d ∈ part, 128 ≤ d.toNat)
      (rest : IsLowerCase text lowered) : IsLowerCase (c :: text) (part ++ lowered)

theorem lowerAscii_of_ascii {c : Char} (is_ascii : c.toNat < 128) : lowerAscii c = c.toLower := by
  have no_kelvin : c ≠ '\u212A' := by
    rintro rfl
    exact absurd is_ascii (by decide)
  rw [lowerAscii, beq_false_of_ne no_kelvin]
  rfl

theorem lowerAscii_of_beyond {c : Char} (beyond : 128 ≤ c.toNat) (no_kelvin : c ≠ '\u212A') :
    lowerAscii c = c := by
  rw [lowerAscii, beq_false_of_ne no_kelvin]
  refine dif_neg fun capital => ?_
  have small : c.toNat ≤ 'Z'.toNat := UInt32.le_iff_toNat_le.mp capital.2
  rw [show 'Z'.toNat = 90 from rfl] at small
  omega

/-- One such lower case is that of ASCII letters alone. -/
theorem isLowerCase_map_lowerAscii (text : List Char) :
    IsLowerCase text (text.map lowerAscii) := by
  induction text with
  | nil => exact .nil
  | cons c text ih =>
    rw [List.map_cons]
    by_cases is_ascii : c.toNat < 128
    · rw [lowerAscii_of_ascii is_ascii]
      exact .ascii is_ascii ih
    · by_cases kelvin : c = '\u212A'
      · rw [kelvin]
        exact .kelvin ih
      · have beyond : 128 ≤ c.toNat := Nat.not_lt.mp is_ascii
        rw [lowerAscii_of_beyond beyond kelvin]
        exact .other beyond kelvin ⟨c, List.mem_singleton_self c, beyond⟩ ih

/-- Where only ASCII is asked for, every lower case is as good as the one of ASCII letters. -/
theorem IsLowerCase.eq_iff {text lowered key : List Char} (is_lower : IsLowerCase text lowered)
    (is_ascii : ∀ c ∈ key, c.toNat < 128) : lowered = key ↔ text.map lowerAscii = key := by
  induction is_lower generalizing key with
  | nil => exact Iff.rfl
  | ascii c_ascii rest ih =>
    cases key with
    | nil => simp
    | cons d key =>
      rw [List.map_cons, lowerAscii_of_ascii c_ascii, List.cons.injEq, List.cons.injEq,
        ih (List.forall_mem_cons.mp is_ascii).2]
  | kelvin rest ih =>
    cases key with
    | nil => simp
    | cons d key =>
      rw [List.map_cons, List.cons.injEq, List.cons.injEq,
        ih (List.forall_mem_cons.mp is_ascii).2]
      rfl
  | @other c part text lowered beyond no_kelvin left rest ih =>
    rw [List.map_cons, lowerAscii_of_beyond beyond no_kelvin]
    -- both sides hold a character that is not ASCII
    constructor
    · rintro rfl
      obtain ⟨d, mem, d_beyond⟩ := left
      exact absurd (is_ascii d (List.mem_append_left _ mem)) (Nat.not_lt.mpr d_beyond)
    · rintro rfl
      exact absurd (is_ascii c List.mem_cons_self) (Nat.not_lt.mpr beyond)

end TraceInquest.Text
