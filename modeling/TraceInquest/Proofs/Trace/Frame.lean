import TraceInquest.Proofs.Text.Blank
import TraceInquest.Proofs.Text.Digit
import TraceInquest.Trace.Rule

/-! # The frame made of captured parts

* **`baseName_append`** — only what stands behind the last separator matters.
* **`locatedFrame`**, **`frameOf_eq`** — the frame made of a path and a line number. -/

namespace TraceInquest

/-! ## The last name of a path -/

theorem baseName_suffix (path : List Char) : baseName path <:+ path := by
  rw [baseName, ← List.reverse_prefix, List.reverse_reverse]
  exact List.takeWhile_prefix _

/-- In front of a separator nothing matters. -/
theorem baseName_append {path : List Char} {c : Char} (mem : c ∈ path)
    (separates : isSeparator c = true) (front : List Char) :
    baseName (front ++ path) = baseName path := by
  -- read from its end, the path is cut at its last separator at the latest
  have cut : (path.reverse.takeWhile fun c => !isSeparator c).length ≠ path.reverse.length := by
    intro whole
    have same := (List.takeWhile_prefix fun c => !isSeparator c).eq_of_length whole
    have kept := List.mem_takeWhile_imp (same ▸ List.mem_reverse.mpr mem)
    rw [separates] at kept
    exact absurd kept Bool.false_ne_true
  rw [baseName, List.reverse_append, List.takeWhile_append, if_neg cut, baseName]

theorem not_isBlank_of_isSeparator {c : Char} (separates : isSeparator c = true) :
    Text.isBlank c = false := by
  rw [isSeparator, Bool.or_eq_true, beq_iff_eq, beq_iff_eq] at separates
  rcases separates with rfl | rfl <;> decide

/-- The last name of a path with separators does not depend on what stands in front of it. -/
theorem baseName_strip_append {path : List Char} {c : Char} (mem : c ∈ path)
    (separates : isSeparator c = true) (starts : ∀ d ∈ path.head?, Text.isBlank d = false)
    {front : List Char} (front_starts : ∀ d ∈ front.head?, Text.isBlank d = false) :
    baseName (Text.strip (front ++ path)) = baseName (Text.strip path) := by
  have kept := not_isBlank_of_isSeparator separates
  have whole_starts : ∀ d ∈ (front ++ path).head?, Text.isBlank d = false := by
    cases front with
    | nil => exact starts
    | cons d front => exact front_starts
  rw [Text.strip, Text.stripLeft_of_head? whole_starts, Text.strip, Text.stripLeft_of_head? starts,
    Text.stripRight_append mem kept, baseName_append (Text.mem_stripRight mem kept) separates]

/-! ## Frames -/

/-- The frame with the last name of a path, a function and the line that a numeral denotes. -/
def locatedFrame (path digits : List Char) (function : String) : Frame where
  filename := String.ofList (baseName (Text.strip path))
  function := function
  line := Text.numeralValue digits

/-- The frame of a find in which a path and a line have been captured, and maybe a column. -/
theorem frameOf_eq_ok {found : Found FramePart} {path digits : List Char} {function : String}
    {column? : Option (List Char)} (path_eq : found.captured? .path = some path)
    (line_eq : found.captured? .line = some digits) (column_eq : found.captured? .column = column?)
    (numeral : Text.IsNumeral digits) (column_numeral : ∀ column ∈ column?, Text.IsNumeral column)
    (function_eq : ((found.captured? .function).map functionName).getD unknownFunction = function) :
    frameOf found = .ok { locatedFrame path digits function with
      column := column?.map fun column => (Text.numeralValue column : Int) } := by
  rw [frameOf, Found.captured, Found.captured, path_eq, line_eq, column_eq, Option.getD_some,
    Option.getD_some, numeral.readNumeral_eq, function_eq]
  cases column? with
  | none => rfl
  | some column =>
    rw [Option.mapM_some, (column_numeral column rfl).readNumeral_eq]
    rfl

/-- The frame of a find in which a path and a line have been captured, but no column. -/
theorem frameOf_eq {found : Found FramePart} {path digits : List Char} {function : String}
    (path_eq : found.captured? .path = some path) (line_eq : found.captured? .line = some digits)
    (column_eq : found.captured? .column = none) (numeral : Text.IsNumeral digits)
    (function_eq : ((found.captured? .function).map functionName).getD unknownFunction = function) :
    frameOf found = .ok (locatedFrame path digits function) :=
  frameOf_eq_ok path_eq line_eq column_eq numeral (fun _ none => nomatch none) function_eq

/-- A name with other characters than blanks is that of a known function. -/
theorem functionName_eq {captured : List Char} {c : Char} (mem : c ∈ captured)
    (kept : Text.isBlank c = false) :
    functionName captured = String.ofList (Text.strip captured) := by
  have left : (Text.strip captured).isEmpty = false := by
    rw [List.isEmpty_eq_false_iff]
    exact List.ne_nil_of_mem (Text.mem_strip mem kept)
  rw [functionName, left]
  rfl

end TraceInquest
