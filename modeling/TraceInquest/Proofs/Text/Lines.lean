import TraceInquest.Proofs.Text.Blank
import TraceInquest.Proofs.Text.Parts
import TraceInquest.Text.Lines

/-! # Cutting a text that was put together from lines

Cutting undoes putting together, as long as no line holds a break of its own.

* **`cutLines_append_break`** — a line and the break behind it are cut off as one line.
* **`not_isBreak_of_mem_cutLines`** — a line that was cut off holds no break.
* **`length_pieces`** — how many pieces a text has.
* **`filled_splitLines_append`** — apart from empty lines, texts with a line break between them are
  cut apart from each other.
* **`contentLines_ofLines`** — the lines of a text that was put together from lines. -/

namespace TraceInquest.Text

variable {isBreak : Char → Bool}

/-! ## Cutting at any break -/

/-- A text without breaks is put in front of the first line. -/
theorem cutLines_of_unbroken {text : List Char} (unbroken : ∀ c ∈ text, isBreak c = false)
    (first : List Char) (after : List (List Char)) :
    cutLines isBreak (first :: after) text = (text ++ first) :: after := by
  induction text with
  | nil => rfl
  | cons c text ih =>
    have c_kept : isBreak c = false := unbroken c List.mem_cons_self
    have text_kept := ih fun d mem => unbroken d (List.mem_cons_of_mem c mem)
    rw [cutLines_cons, if_neg (by simp [c_kept]), text_kept]
    rfl

/-- A line and the break behind it are cut off as one line. -/
theorem cutLines_append_break {line : List Char} (unbroken : ∀ c ∈ line, isBreak c = false)
    {c : Char} (c_breaks : isBreak c = true) (after : List (List Char)) (rest : List Char) :
    cutLines isBreak after (line ++ c :: rest) = line :: cutLines isBreak after rest := by
  rw [cutLines_append, cutLines_cons, if_pos c_breaks, cutLines_of_unbroken unbroken,
    List.append_nil]

/-- What stands in front of lines is cut without regard to those behind the first of them. -/
theorem cutLines_append_after {first : List (List Char)} (nonempty : first ≠ [])
    (after : List (List Char)) (text : List Char) :
    cutLines isBreak first text ≠ [] ∧
      cutLines isBreak (first ++ after) text = cutLines isBreak first text ++ after := by
  induction text with
  | nil => exact ⟨nonempty, rfl⟩
  | cons c text ih =>
    rw [cutLines_cons, cutLines_cons, ih.2]
    split
    · exact ⟨List.cons_ne_nil _ _, rfl⟩
    · obtain ⟨line, lines, cut⟩ := List.exists_cons_of_ne_nil ih.1
      rw [cut]
      exact ⟨List.cons_ne_nil _ _, rfl⟩

/-- The lines in front of a break and those behind it are cut apart from each other. -/
theorem cutLines_append_cons {c : Char} (c_breaks : isBreak c = true) (before behind : List Char) :
    cutLines isBreak [[]] (before ++ c :: behind) =
      cutLines isBreak [[]] before ++ cutLines isBreak [[]] behind := by
  rw [cutLines_append, cutLines_cons, if_pos c_breaks]
  exact (cutLines_append_after (List.cons_ne_nil [] []) _ before).2

/-- The lines hold the text without its breaks. -/
theorem flatten_cutLines (after : List (List Char)) (text : List Char) :
    (cutLines isBreak after text).flatten =
      (text.filter fun c => !isBreak c) ++ after.flatten := by
  have flatten_extendHead (c : Char) (lines : List (List Char)) :
      (extendHead c lines).flatten = c :: lines.flatten := by
    cases lines <;> rfl
  induction text with
  | nil => rfl
  | cons c text ih =>
    rw [cutLines_cons, List.filter_cons]
    cases isBreak c with
    | true => exact ih
    | false => exact (flatten_extendHead c _).trans (congrArg (c :: ·) ih)

/-- A line that was cut off holds no break. -/
theorem not_isBreak_of_mem_cutLines {after : List (List Char)}
    (unbroken : ∀ line ∈ after, ∀ c ∈ line, isBreak c = false) {text line : List Char}
    (cut : line ∈ cutLines isBreak after text) : ∀ c ∈ line, isBreak c = false := by
  intro c mem
  have mem_flatten := List.mem_flatten_of_mem cut mem
  rw [flatten_cutLines, List.mem_append, List.mem_filter, List.mem_flatten] at mem_flatten
  rcases mem_flatten with ⟨-, kept⟩ | ⟨other, other_mem, mem⟩
  · simpa using kept
  · exact unbroken other other_mem c mem

/-- A line that was cut off holds only characters of the text. -/
theorem mem_of_mem_cutLines {text line : List Char} (cut : line ∈ cutLines isBreak [[]] text)
    {c : Char} (mem : c ∈ line) : c ∈ text := by
  have mem_flatten := List.mem_flatten_of_mem cut mem
  rw [flatten_cutLines, show [([] : List Char)].flatten = [] from rfl, List.append_nil]
    at mem_flatten
  exact (List.mem_filter.mp mem_flatten).1

/-! ## Pieces between line feeds -/

/-- A text without line feeds and the line feed behind it are one piece. -/
theorem pieces_append_newline {line : List Char} (unbroken : '\n' ∉ line) (rest : List Char) :
    pieces (line ++ '\n' :: rest) = line :: pieces rest :=
  cutLines_append_break (beq_eq_false_of_not_mem unbroken) rfl [[]] rest

/-- A text without line feeds is one piece. -/
theorem pieces_of_not_mem {line : List Char} (unbroken : '\n' ∉ line) : pieces line = [line] := by
  rw [pieces, cutLines_of_unbroken (beq_eq_false_of_not_mem unbroken), List.append_nil]

/-- A piece holds no line feed. -/
theorem not_mem_of_mem_pieces {text line : List Char} (cut : line ∈ pieces text) :
    '\n' ∉ line := by
  intro mem
  have kept := @not_isBreak_of_mem_cutLines (· == '\n') [[]] (by simp) text line cut '\n' mem
  simp at kept

/-- Every line feed opens one more piece. -/
theorem length_pieces (text : List Char) : (pieces text).length = text.count '\n' + 1 := by
  induction text with
  | nil => rfl
  | cons c text ih =>
    rw [pieces] at ih ⊢
    rw [cutLines_cons, List.count_cons]
    split
    · rw [List.length_cons, ih]
    · cases lines : cutLines (· == '\n') [[]] text with
      | nil => simp [lines] at ih
      | cons line others => simpa [lines, extendHead] using ih

/-- Pieces are what is between the line feeds. -/
theorem pieces_eq_splitOn (text : List Char) : pieces text = text.splitOn '\n' := by
  induction text with
  | nil => rfl
  | cons c text ih =>
    simp only [pieces, List.splitOn] at ih ⊢
    obtain ⟨line, lines, split⟩ := List.exists_cons_of_ne_nil (List.splitOnP_ne_nil (· == '\n') text)
    rw [cutLines_cons, ih, List.splitOnP_cons_eq_if_modifyHead, split]
    rfl

/-- Texts with a line feed between them have their own pieces. -/
theorem pieces_append_cons (before behind : List Char) :
    pieces (before ++ '\n' :: behind) = pieces before ++ pieces behind :=
  cutLines_append_cons rfl before behind

theorem length_contentLines (content : String) :
    (contentLines content).length = content.toList.count '\n' + 1 := by
  rw [contentLines, List.length_map, length_pieces]

/-- Whether a text is one line, without a line feed. -/
def IsLine (text : String) : Prop := '\n' ∉ text.toList

instance (text : String) : Decidable (IsLine text) :=
  inferInstanceAs (Decidable ('\n' ∉ text.toList))

@[simp] theorem isLine_append {first second : String} :
    IsLine (first ++ second) ↔ IsLine first ∧ IsLine second := by
  rw [IsLine, String.toList_append, List.mem_append, not_or]
  rfl

/-- A line feed would be blank. -/
theorem IsSolid.isLine {text : String} (solid : IsSolid text.toList) : IsLine text :=
  fun broken => absurd (solid.all '\n' broken) (by decide)

/-- A line is all there is to cut off from it. -/
theorem contentLines_of_isLine {line : String} (is_line : IsLine line) :
    contentLines line = [line] := by
  rw [contentLines, pieces_of_not_mem is_line, List.map_singleton, String.ofList_toList]

/-- The lines of a text are lines. -/
theorem isLine_of_mem_contentLines {content line : String}
    (cut : line ∈ contentLines content) : IsLine line := by
  obtain ⟨piece, piece_cut, rfl⟩ := List.mem_map.mp cut
  rw [IsLine, String.toList_ofList]
  exact not_mem_of_mem_pieces piece_cut

/-- A line of a trace holds no line feed. -/
theorem not_mem_of_mem_splitLines {text line : List Char} (cut : line ∈ splitLines text) :
    '\n' ∉ line := by
  intro mem
  have kept := @not_isBreak_of_mem_cutLines isLineBreak [] (by simp) _ line cut '\n' mem
  exact absurd kept (by decide)

/-! ## Lines that are not empty -/

/-- The lines that are not empty. -/
def filled (lines : List (List Char)) : List (List Char) := lines.filter (· ≠ [])

@[simp] theorem filled_nil_cons (lines : List (List Char)) : filled ([] :: lines) = filled lines :=
  rfl

@[simp] theorem filled_append (first second : List (List Char)) :
    filled (first ++ second) = filled first ++ filled second := List.filter_append ..

/-- Whether lines begin with the same text and, apart from empty ones, go on with the same lines. -/
structure SameFilled (lines others : List (List Char)) : Prop where
  head : lines.headD [] = others.headD []
  tail : filled lines.tail = filled others.tail

namespace SameFilled

variable {lines others : List (List Char)}

theorem filled_eq (same : SameFilled lines others) : filled lines = filled others := by
  have apart : ∀ lines, filled lines = filled [lines.headD []] ++ filled lines.tail := by
    intro lines
    cases lines with
    | nil => rfl
    | cons line lines => exact filled_append [line] lines
  rw [apart lines, apart others, same.head, same.tail]

theorem extend (same : SameFilled lines others) (c : Char) :
    SameFilled (extendHead c lines) (extendHead c others) := by
  have head_eq : ∀ lines, (extendHead c lines).headD [] = c :: lines.headD [] := by
    intro lines
    cases lines <;> rfl
  have tail_eq : ∀ lines, (extendHead c lines).tail = lines.tail := by
    intro lines
    cases lines <;> rfl
  constructor
  · rw [head_eq, head_eq, same.head]
  · rw [tail_eq, tail_eq, same.tail]

theorem nil_cons (same : SameFilled lines others) : SameFilled ([] :: lines) ([] :: others) :=
  ⟨rfl, same.filled_eq⟩

/-- Lines that begin with an empty text may have one more empty line. -/
theorem cons_nil (same : SameFilled lines others) (empty : others.headD [] = []) :
    SameFilled lines ([] :: others) := by
  refine ⟨same.head.trans empty, same.tail.trans ?_⟩
  cases others with
  | nil => rfl
  | cons line others =>
    obtain rfl : line = [] := empty
    rfl

end SameFilled

/-- Neither unified newlines nor a break at the very end change more than empty lines. -/
theorem sameFilled_cutLines_unifyNewlines (text : List Char) :
    SameFilled (splitLines text) (cutLines isLineBreak [[]] text) := by
  rw [splitLines]
  induction text with
  | nil => exact ⟨rfl, rfl⟩
  | cons c text ih =>
    rw [unifyNewlines_cons, cutLines_cons]
    by_cases returns : c = '\r'
    · have return_breaks : isLineBreak '\r' = true := by decide
      have feed_breaks : isLineBreak '\n' = true := by decide
      rw [if_pos returns, returns, if_pos return_breaks]
      split
      · -- the line feed behind the carriage return is a break of its own where newlines are kept
        rename_i feed
        obtain ⟨text, rfl⟩ := List.head?_eq_some_iff.mp feed
        refine ih.cons_nil ?_
        rw [cutLines_cons, if_pos feed_breaks]
        rfl
      · rw [cutLines_cons, if_pos feed_breaks]
        exact ih.nil_cons
    · rw [if_neg returns, cutLines_cons]
      split
      · exact ih.nil_cons
      · exact ih.extend c

theorem filled_splitLines (text : List Char) :
    filled (splitLines text) = filled (cutLines isLineBreak [[]] text) :=
  (sameFilled_cutLines_unifyNewlines text).filled_eq

/-- The texts that end a line of a trace. -/
def lineSeparators : List String :=
  ["\n", "\r", "\r\n", "\u000b", "\u000c", "\u001c", "\u001d", "\u001e", "\u0085", "\u2028",
   "\u2029"]

theorem isLineBreak_of_mem_lineSeparators {separator : String} (mem : separator ∈ lineSeparators) :
    separator.toList ≠ [] ∧ ∀ c ∈ separator.toList, isLineBreak c = true := by
  revert separator
  simp [lineSeparators, isLineBreak]

/-- Apart from empty lines, the lines of two texts with line breaks between them are those of the
texts, even if the breaks belong together with a break of one of the texts. -/
theorem filled_splitLines_append {separator : List Char} (nonempty : separator ≠ [])
    (breaks : ∀ c ∈ separator, isLineBreak c = true) (before behind : List Char) :
    filled (splitLines (before ++ (separator ++ behind))) =
      filled (splitLines before) ++ filled (splitLines behind) := by
  obtain ⟨c, others, rfl⟩ := List.exists_cons_of_ne_nil nonempty
  obtain ⟨c_breaks, others_break⟩ := List.forall_mem_cons.mp breaks
  have others_empty : filled (cutLines isLineBreak [[]] (others ++ behind)) =
      filled (cutLines isLineBreak [[]] behind) := by
    clear breaks nonempty
    induction others with
    | nil => rfl
    | cons d others ih =>
      obtain ⟨d_breaks, others_break⟩ := List.forall_mem_cons.mp others_break
      rw [List.cons_append, cutLines_cons, if_pos d_breaks, filled_nil_cons, ih others_break]
  rw [filled_splitLines, filled_splitLines, filled_splitLines, List.cons_append,
    cutLines_append_cons c_breaks, filled_append, others_empty]

/-! ## Texts made of lines -/

/-- The text whose lines are each ended by a line feed. -/
def ofLines (lines : List String) : String := String.join (lines.map (· ++ "\n"))

@[simp] theorem ofLines_nil : ofLines [] = "" := rfl

@[simp] theorem ofLines_cons (line : String) (lines : List String) :
    ofLines (line :: lines) = line ++ "\n" ++ ofLines lines := by
  rw [ofLines, List.map_cons, String.join_cons, ofLines]

@[simp] theorem ofLines_append (first second : List String) :
    ofLines (first ++ second) = ofLines first ++ ofLines second := by
  rw [ofLines, List.map_append, String.join_append, ofLines, ofLines]

theorem ofLines_flatten (parts : List (List String)) :
    ofLines parts.flatten = String.join (parts.map ofLines) := by
  induction parts with
  | nil => rfl
  | cons part parts ih =>
    rw [List.flatten_cons, ofLines_append, ih, List.map_cons, String.join_cons]

/-- Lines that are each ended by a line feed are the first pieces of a text that starts with them. -/
theorem contentLines_ofLines_append {lines : List String}
    (all_lines : ∀ line ∈ lines, IsLine line) (text : String) :
    contentLines (ofLines lines ++ text) = lines ++ contentLines text := by
  induction lines with
  | nil => rw [ofLines_nil, String.empty_append, List.nil_append]
  | cons line lines ih =>
    have rest := ih fun other mem => all_lines other (List.mem_cons_of_mem line mem)
    have line_unbroken : '\n' ∉ line.toList := all_lines line List.mem_cons_self
    rw [contentLines] at rest ⊢
    rw [ofLines_cons, String.append_assoc, String.append_assoc, String.toList_append,
      String.toList_append, show "\n".toList = ['\n'] from rfl, List.singleton_append,
      pieces_append_newline line_unbroken, List.map_cons, rest, String.ofList_toList]
    rfl

/-- Lines that are each ended by a line feed are the pieces of the text they make, and an empty
piece stands behind the last line feed. -/
theorem contentLines_ofLines {lines : List String} (all_lines : ∀ line ∈ lines, IsLine line) :
    contentLines (ofLines lines) = lines ++ [""] := by
  have cut := contentLines_ofLines_append all_lines ""
  rwa [String.append_empty] at cut

/-- Lines with line feeds between them are the pieces of the text they make. -/
theorem contentLines_intercalate {lines : List String} (nonempty : lines ≠ [])
    (all_lines : ∀ line ∈ lines, IsLine line) :
    contentLines (String.intercalate "\n" lines) = lines := by
  induction lines with
  | nil => exact absurd rfl nonempty
  | cons line lines ih =>
    obtain ⟨is_line, others⟩ := List.forall_mem_cons.mp all_lines
    by_cases last : lines = []
    · subst last
      rw [String.intercalate_singleton, contentLines_of_isLine is_line]
    · have rest := ih last others
      rw [contentLines] at rest ⊢
      rw [String.intercalate_cons_of_ne_nil last, String.append_assoc, String.toList_append,
        String.toList_append, show "\n".toList = ['\n'] from rfl, List.singleton_append,
        pieces_append_newline is_line, List.map_cons, rest, String.ofList_toList]

/-- The pieces of a text with line feeds between them make the text. -/
theorem intercalate_contentLines (content : String) :
    String.intercalate "\n" (contentLines content) = content := by
  have back : String.toList ∘ String.ofList = id := funext fun _ => String.toList_ofList
  rw [← String.toList_inj, String.toList_intercalate, contentLines, List.map_map, back, List.map_id,
    pieces_eq_splitOn]
  exact List.intercalate_splitOn '\n'

end TraceInquest.Text
