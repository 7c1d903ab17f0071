/-! # Lines of a text

A text is cut into lines in two ways. The lines of a source file are the pieces between line
feeds, so a text with `n` line feeds has `n + 1` of them. The lines of a trace end at any of the
line breaks that writing systems use, and a break at the very end opens no further line.

* **`unifyNewlines text`** — every carriage return, with the line feed after it if there is one,
  becomes one line feed.
* **`pieces text`** — the pieces between line feeds.
* **`splitLines text`** — the lines ended by any line break.
* **`terminatedLines text`** — the lines with their line feeds. -/

namespace TraceInquest.Text

/-! ## Newline styles -/

/-- Puts one character in front of a text whose newlines are unified; the first component is the
character that follows in the text as written. -/
def unifyStep (c : Char) : Option Char × List Char → Option Char × List Char
  | (next, done) =>
    (some c,
      if c = '\r' then
        if next = some '\n' then done else '\n' :: done
      else c :: done)

/-- The text with every carriage return, or carriage return and line feed, made a line feed. -/
def unifyNewlines (text : List Char) : List Char :=
  (text.foldr unifyStep (none, [])).2

@[simp] theorem unifyNewlines_nil : unifyNewlines [] = [] := rfl

theorem foldr_unifyStep_fst (text : List Char) :
    (text.foldr unifyStep (none, [])).1 = text.head? := by
  cases text <;> rfl

/-- A carriage return becomes a line feed unless a line feed follows it. -/
theorem unifyNewlines_cons (c : Char) (text : List Char) :
    unifyNewlines (c :: text) =
      if c = '\r' then
        if text.head? = some '\n' then unifyNewlines text else '\n' :: unifyNewlines text
      else c :: unifyNewlines text := by
  simp only [unifyNewlines, List.foldr_cons, ← foldr_unifyStep_fst]
  rfl

/-- No carriage return is left. -/
theorem not_mem_unifyNewlines (text : List Char) : '\r' ∉ unifyNewlines text := by
  induction text with
  | nil => simp
  | cons c text ih =>
    rw [unifyNewlines_cons]
    split
    · split
      · exact ih
      · simp [ih]
    · rename_i h
      simp [ih, Ne.symm h]

/-! ## Cutting -/

/-- Puts a character in front of the first line. -/
def extendHead (c : Char) : List (List Char) → List (List Char)
  | [] => [[c]]
  | line :: lines => (c :: line) :: lines

/-- The lines of a text in front of lines already cut. -/
def cutLines (isBreak : Char → Bool) (after : List (List Char)) (text : List Char) :
    List (List Char) :=
  text.foldr (fun c lines => if isBreak c then [] :: lines else extendHead c lines) after

@[simp] theorem cutLines_nil (isBreak : Char → Bool) (after : List (List Char)) :
    cutLines isBreak after [] = after := rfl

theorem cutLines_cons (isBreak : Char → Bool) (after : List (List Char)) (c : Char)
    (text : List Char) :
    cutLines isBreak after (c :: text) =
      if isBreak c then [] :: cutLines isBreak after text
      else extendHead c (cutLines isBreak after text) := rfl

theorem cutLines_append (isBreak : Char → Bool) (after : List (List Char))
    (first second : List Char) :
    cutLines isBreak after (first ++ second) =
      cutLines isBreak (cutLines isBreak after second) first := by
  simp [cutLines]

/-- The pieces of a text between line feeds; there is always at least one. -/
def pieces (text : List Char) : List (List Char) := cutLines (· == '\n') [[]] text

@[simp] theorem pieces_nil : pieces [] = [[]] := rfl

/-- The characters that end a line of a trace. -/
def isLineBreak (c : Char) : Bool :=
  let n := c.toNat
  (10 ≤ n && n ≤ 13) || (28 ≤ n && n ≤ 30) || n == 0x85 || n == 0x2028 || n == 0x2029

/-- The lines of a text, each ended by a line break or by the end of the text. -/
def splitLines (text : List Char) : List (List Char) :=
  cutLines isLineBreak [] (unifyNewlines text)

/-- The lines of a text, each with the line feed that ends it; the last may have none. -/
def terminatedLines (text : List Char) : List (List Char) :=
  text.foldr (fun c lines => if c == '\n' then [c] :: lines else extendHead c lines) []

/-- The pieces of a text between line feeds. -/
def contentLines (content : String) : List String := (pieces content.toList).map String.ofList

end TraceInquest.Text
