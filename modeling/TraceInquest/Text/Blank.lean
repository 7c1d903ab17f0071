/-! # White space

The blanks are the separators, controls and spaces that part words, in every script.

* **`isBlank c`** — the blank characters.
* **`strip text`** — the text without the blanks at its two ends. -/

namespace TraceInquest.Text

/-- The characters that count as white space. -/
def isBlank (c : Char) : Bool :=
  let n := c.toNat
  if n < 128 then n == 32 || (9 ≤ n && n ≤ 13) || (28 ≤ n && n ≤ 31)
  else n == 0x85 || n == 0xA0 || n == 0x1680 || (0x2000 ≤ n && n ≤ 0x200A) || n == 0x2028 ||
    n == 0x2029 || n == 0x202F || n == 0x205F || n == 0x3000

/-- Every character that ends a word in ASCII text is blank. -/
theorem isBlank_of_isWhitespace {c : Char} (h : c.isWhitespace = true) : isBlank c = true := by
  simp only [Char.isWhitespace, Bool.or_eq_true, decide_eq_true_eq] at h
  rcases h with ((rfl | rfl) | rfl) | rfl <;> decide

/-- The text without leading blanks. -/
def stripLeft (text : List Char) : List Char := text.dropWhile isBlank

/-- The text without trailing blanks. -/
def stripRight (text : List Char) : List Char := (text.reverse.dropWhile isBlank).reverse

/-- The text without the blanks at its two ends. -/
def strip (text : List Char) : List Char := stripRight (stripLeft text)

@[simp] theorem strip_nil : strip [] = [] := rfl

end TraceInquest.Text
