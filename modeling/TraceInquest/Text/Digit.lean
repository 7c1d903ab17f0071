/-! # Decimal digits and numerals

A decimal digit is a character of any script whose value Unicode 14 gives as 0 to 9. The digits
of one script are ten successive code points, so the table lists only the zeros.

* **`digitValue? c`** — the value of a digit.
* **`numeralValue digits`** — the number that a run of digits denotes, in base ten.
* **`readNumeral digits`** — the same, refusing runs longer than `maxNumeralLength`. -/

namespace TraceInquest.Text

/-- The code points of the zero digits beyond ASCII. -/
def digitZeros : List Nat :=
  [0x660, 0x6f0, 0x7c0, 0x966, 0x9e6, 0xa66, 0xae6, 0xb66, 0xbe6, 0xc66, 0xce6, 0xd66, 0xde6,
   0xe50, 0xed0, 0xf20, 0x1040, 0x1090, 0x17e0, 0x1810, 0x1946, 0x19d0, 0x1a80, 0x1a90,
   0x1b50, 0x1bb0, 0x1c40, 0x1c50, 0xa620, 0xa8d0, 0xa900, 0xa9d0, 0xa9f0, 0xaa50, 0xabf0,
   0xff10, 0x104a0, 0x10d30, 0x11066, 0x110f0, 0x11136, 0x111d0, 0x112f0, 0x11450, 0x114d0,
   0x11650, 0x116c0, 0x11730, 0x118e0, 0x11950, 0x11c50, 0x11d50, 0x11da0, 0x16a60, 0x16ac0,
   0x16b50, 0x1d7ce, 0x1d7d8, 0x1d7e2, 0x1d7ec, 0x1d7f6, 0x1e140, 0x1e2f0, 0x1e950, 0x1fbf0]

/-- The value of a decimal digit of any script. -/
def digitValue? (c : Char) : Option Nat :=
  if c.toNat < 128 then
    if c.isDigit then some (c.toNat - 48) else none
  else
    (digitZeros.find? fun first => first ≤ c.toNat && c.toNat < first + 10).map (c.toNat - ·)

/-- Whether a character is a decimal digit of any script. -/
def isDigit (c : Char) : Bool := (digitValue? c).isSome

/-- A digit's value is less than ten. -/
theorem digitValue?_lt {c : Char} {value : Nat} (h : digitValue? c = some value) :
    value < 10 := by
  unfold digitValue? at h
  split at h
  · split at h
    · rename_i digit
      simp only [Option.some.injEq] at h
      have : c.toNat ≤ 57 := by
        simp only [Char.isDigit, Bool.and_eq_true, decide_eq_true_eq] at digit
        exact UInt32.le_iff_toNat_le.mp digit.2
      omega
    · simp at h
  · obtain ⟨first, found, rfl⟩ := Option.map_eq_some_iff.mp h
    have := List.find?_some found
    simp only [Bool.and_eq_true, decide_eq_true_eq] at this
    omega

/-- The number denoted by a run of digits in base ten. -/
def numeralValue (digits : List Char) : Nat :=
  digits.foldl (fun value c => value * 10 + (digitValue? c).getD 0) 0

@[simp] theorem numeralValue_nil : numeralValue [] = 0 := rfl

/-- The longest run of digits that is read as a number. -/
def maxNumeralLength : Nat := 4300

/-- A run of digits too long to be read as a number. -/
structure NumeralTooLong where
  /-- How many digits the run has, leading zeros included. -/
  length : Nat
  deriving DecidableEq, Repr

/-- What is said of a run of digits that is too long. -/
def NumeralTooLong.message (fault : NumeralTooLong) : String :=
  "Exceeds the limit (" ++ toString maxNumeralLength ++
    " digits) for integer string conversion: value has " ++ toString fault.length ++
    " digits; use sys.set_int_max_str_digits() to increase the limit"

/-- The number denoted by a run of digits that is not too long. -/
def readNumeral (digits : List Char) : Except NumeralTooLong Nat :=
  if maxNumeralLength < digits.length then .error ⟨digits.length⟩
  else .ok (numeralValue digits)

/-- Reading fails on the runs longer than the limit and on no other. -/
theorem readNumeral_eq_error_iff {digits : List Char} {fault : NumeralTooLong} :
    readNumeral digits = .error fault ↔
      maxNumeralLength < digits.length ∧ fault = ⟨digits.length⟩ := by
  unfold readNumeral
  split
  · simp_all [eq_comm]
  · simp_all [Nat.not_lt_of_le]

theorem readNumeral_eq_ok_iff {digits : List Char} {value : Nat} :
    readNumeral digits = .ok value ↔
      digits.length ≤ maxNumeralLength ∧ value = numeralValue digits := by
  unfold readNumeral
  split
  · rename_i long
    simp [Nat.not_le_of_lt long]
  · rename_i short
    simp [Nat.le_of_not_lt short, eq_comm]

end TraceInquest.Text
