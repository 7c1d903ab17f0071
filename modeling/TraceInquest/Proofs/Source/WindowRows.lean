import Mathlib.Data.List.Infix
import TraceInquest.Proofs.Source.Window

/-! # The rows of a window

Every line of a file has a row, and the rows of a window are those of them that are in reach of its
target. So a window never asks for a line that the file does not have, wherever its target lies.

* **`fileRows lines target`**, **`relevantLines_eq`** — the rows of a file, and a window cut out of
  them.
* **`RelevantLine.Shows`**, **`mem_relevantLines`** — what a row shows, and which rows a window has.
* **`rowsByIndex?`**, **`rowsByIndex?_eq_some`** — looking the lines up one by one, which finds all
  of them.
* **`relevantLines_infix`** — a window within a larger one.
* **`windowAround_eq_none_iff`**, **`IsWindowAround`** — the window around a line of a text.
* **`window_exact`** — all of it together. -/

namespace TraceInquest

variable {lines : List String} {target radius : Int} {row : RelevantLine}

/-! ## The rows of a file -/

/-- The rows of all lines of a file. -/
def fileRows (lines : List String) (target : Int) : List RelevantLine :=
  lines.mapIdx fun index content =>
    { number := (index + 1 : Nat), content, role := lineRole target index }

@[simp] theorem length_fileRows (lines : List String) (target : Int) :
    (fileRows lines target).length = lines.length := List.length_mapIdx

theorem getElem?_fileRows (lines : List String) (target : Int) (index : Nat) :
    (fileRows lines target)[index]? =
      lines[index]?.map (RelevantLine.mk (index + 1 : Nat) · (lineRole target index)) :=
  List.getElem?_mapIdx

theorem content_fileRows (lines : List String) (target : Int) :
    (fileRows lines target).map (·.content) = lines := by
  refine List.ext_getElem? fun index => ?_
  rw [List.getElem?_map, getElem?_fileRows, Option.map_map]
  exact Option.map_id_apply

/-- A window is cut out of the rows of the file. -/
theorem relevantLines_eq (lines : List String) (target radius : Int) :
    relevantLines lines target radius =
      ((fileRows lines target).take (target + radius + 1).toNat).drop (target - radius).toNat := by
  refine List.ext_getElem? fun offset => ?_
  rw [relevantLines, List.getElem?_mapIdx, List.drop_take, List.getElem?_take, List.getElem?_take,
    List.getElem?_drop, List.getElem?_drop, getElem?_fileRows]
  split <;> rfl

/-! ## What a row shows -/

/-- Whether a row shows the line with an index, in its place before, at or after the target. -/
structure RelevantLine.Shows (row : RelevantLine) (lines : List String) (target : Int)
    (index : Nat) : Prop where
  number : row.number = index + 1
  content : lines[index]? = some row.content
  before : row.role = .before ↔ (index : Int) < target
  at_target : row.role = .target ↔ (index : Int) = target
  after : row.role = .after ↔ target < (index : Int)

theorem lineRole_eq_before_iff {index : Nat} :
    lineRole target index = .before ↔ (index : Int) < target := by
  rw [lineRole]
  split_ifs <;> simp only [true_iff, false_iff] <;> omega

theorem lineRole_eq_after_iff {index : Nat} :
    lineRole target index = .after ↔ target < (index : Int) := by
  rw [lineRole]
  split_ifs <;> simp only [true_iff, false_iff] <;> omega

/-- The row of a file at an index is the one that shows the line there. -/
theorem getElem?_fileRows_eq_some_iff {index : Nat} :
    (fileRows lines target)[index]? = some row ↔ row.Shows lines target index := by
  rw [getElem?_fileRows, Option.map_eq_some_iff]
  constructor
  · rintro ⟨content, found, rfl⟩
    exact ⟨by simp, found, lineRole_eq_before_iff, lineRole_eq_target_iff, lineRole_eq_after_iff⟩
  · intro shows
    refine ⟨row.content, shows.content, ?_⟩
    have role : lineRole target index = row.role := by
      rcases Int.lt_trichotomy index target with before | same | after
      · rw [shows.before.mpr before, lineRole_eq_before_iff.mpr before]
      · rw [shows.at_target.mpr same, lineRole_eq_target_iff.mpr same]
      · rw [shows.after.mpr after, lineRole_eq_after_iff.mpr after]
    rw [role, Int.natCast_succ, ← shows.number]

/-- The rows of a window show the lines in reach of the target. -/
theorem mem_relevantLines :
    row ∈ relevantLines lines target radius ↔
      ∃ index : Nat, target - radius ≤ index ∧ (index : Int) ≤ target + radius ∧
        row.Shows lines target index := by
  rw [relevantLines_eq, List.mem_iff_getElem?]
  simp only [List.getElem?_drop, List.getElem?_take, Option.ite_none_right_eq_some,
    getElem?_fileRows_eq_some_iff]
  constructor
  · rintro ⟨offset, reached, shows⟩
    exact ⟨(target - radius).toNat + offset, by omega, by omega, shows⟩
  · rintro ⟨index, from_first, to_last, shows⟩
    refine ⟨index - (target - radius).toNat, ?_⟩
    rw [show (target - radius).toNat + (index - (target - radius).toNat) = index by omega]
    exact ⟨by omega, shows⟩

/-- The rows of a window come in the order of their numbers, each once. -/
theorem pairwise_number_relevantLines (lines : List String) (target radius : Int) :
    (relevantLines lines target radius).Pairwise (·.number < ·.number) := by
  have ascending : (fileRows lines target).Pairwise (·.number < ·.number) := by
    rw [List.pairwise_iff_getElem]
    intro first second _ _ less
    simp only [fileRows, List.getElem_mapIdx]
    omega
  rw [relevantLines_eq]
  exact (ascending.sublist (List.take_sublist _ _)).sublist (List.drop_sublist _ _)

/-- A window lies within every larger one around the same target. -/
theorem relevantLines_infix {smaller : Int} (fits : smaller ≤ radius) :
    relevantLines lines target smaller <:+: relevantLines lines target radius := by
  rw [relevantLines_eq, relevantLines_eq, List.infix_iff_prefix_suffix]
  refine ⟨_, List.IsPrefix.drop (List.take_prefix_take_left (by omega)) _,
    List.drop_suffix_drop_left _ (by omega)⟩

/-! ## Looking the lines up -/

/-- The item at an index, unless the index lies outside the list. -/
def itemAt? {α : Type} (items : List α) (index : Int) : Option α :=
  if index < 0 then none else items[index.toNat]?

theorem itemAt?_natCast {α : Type} (items : List α) (index : Nat) :
    itemAt? items index = items[index]? := by
  rw [itemAt?, if_neg (by omega), Int.toNat_natCast]

/-- The rows of a window, each line looked up by its index. -/
def rowsByIndex? (lines : List String) (target radius : Int) : Option (List RelevantLine) :=
  let first := max 0 (target - radius)
  let stop := min (lines.length : Int) (target + radius + 1)
  (List.range (stop - first).toNat).mapM fun (offset : Nat) => do
    let index := first + offset
    let content ← itemAt? lines index
    return { number := index + 1, content, role := lineRole target index.toNat }

/-- Items that are all there can be looked up one by one. -/
theorem mapM_range_eq_some {α : Type} {find : Nat → Option α} {items : List α}
    (found : ∀ index < items.length, find index = items[index]?) :
    (List.range items.length).mapM find = some items := by
  induction items generalizing find with
  | nil => rfl
  | cons first others ih =>
    have first_found : find 0 = some first := found 0 (Nat.succ_pos _)
    have others_found := ih fun index inside => found (index + 1) (Nat.succ_lt_succ inside)
    rw [List.length_cons, List.range_succ_eq_map, List.mapM_cons, first_found, List.mapM_map,
      Function.comp_def, others_found]
    rfl

/-- Every line that a window asks for is there. -/
theorem rowsByIndex?_eq_some (lines : List String) (target radius : Int) :
    rowsByIndex? lines target radius = some (relevantLines lines target radius) := by
  have length_eq : (min (lines.length : Int) (target + radius + 1) - max 0 (target - radius)).toNat =
      (relevantLines lines target radius).length := by
    rw [relevantLines_eq, List.length_drop, List.length_take, length_fileRows]
    omega
  rw [rowsByIndex?, length_eq]
  refine mapM_range_eq_some fun offset inside => ?_
  rw [← length_eq] at inside
  have reached : (target - radius).toNat + offset < (target + radius + 1).toNat := by omega
  have index_eq : max 0 (target - radius) + offset = ((target - radius).toNat + offset : Nat) := by
    omega
  rw [relevantLines_eq, List.getElem?_drop, List.getElem?_take, if_pos reached, getElem?_fileRows]
  simp only [index_eq, itemAt?_natCast, Int.toNat_natCast]
  cases lines[(target - radius).toNat + offset]? <;> rfl

/-! ## The window around a line of a text -/

/-- The number of lines of a text: one more than it has line feeds. -/
def lineCount (content : String) : Nat := content.toList.count '\n' + 1

variable {content path : String} {targetLine : Int} {window : ContextWindow}

theorem windowAround_eq_none_iff :
    windowAround content targetLine radius path = none ↔
      targetLine < 1 ∨ (lineCount content : Int) < targetLine := by
  rw [windowAround, lineCount, ← Text.length_contentLines]
  split
  · simp only [true_iff]
    omega
  · simp only [reduceCtorEq, false_iff]
    omega

/-- The first row of a window, which is cut off at the start of the file. -/
theorem number_head?_relevantLines (not_negative : 0 ≤ radius) (in_file : 0 ≤ target)
    (bound : target < lines.length) :
    (relevantLines lines target radius).head?.map (·.number) =
      some (max 1 (target + 1 - radius)) := by
  have reached : (target - radius).toNat < (target + radius + 1).toNat := by omega
  have inside : (target - radius).toNat < lines.length := by omega
  rw [relevantLines_eq, List.head?_drop, List.getElem?_take, if_pos reached, getElem?_fileRows,
    List.getElem?_eq_getElem inside, Option.map_some, Option.map_some, Option.some_inj]
  show (((target - radius).toNat + 1 : Nat) : Int) = max 1 (target + 1 - radius)
  omega

/-- The last row of a window, which is cut off at the end of the file. -/
theorem number_getLast?_relevantLines (not_negative : 0 ≤ radius) (in_file : 0 ≤ target)
    (bound : target < lines.length) :
    (relevantLines lines target radius).getLast?.map (·.number) =
      some (min (lines.length : Int) (target + 1 + radius)) := by
  have length_eq : ((fileRows lines target).take (target + radius + 1).toNat).length =
      min (target + radius + 1).toNat lines.length := by
    rw [List.length_take, length_fileRows]
  have last : min (target + radius + 1).toNat lines.length - 1 < (target + radius + 1).toNat := by
    omega
  have inside : min (target + radius + 1).toNat lines.length - 1 < lines.length := by omega
  rw [relevantLines_eq, List.getLast?_drop, length_eq, if_neg (by omega), List.getLast?_eq_getElem?,
    length_eq, List.getElem?_take, if_pos last, getElem?_fileRows, List.getElem?_eq_getElem inside,
    Option.map_some, Option.map_some, Option.some_inj]
  show ((min (target + radius + 1).toNat lines.length - 1 + 1 : Nat) : Int) =
    min (lines.length : Int) (target + 1 + radius)
  omega

/-- A window with a radius as large as the file shows the whole file. -/
theorem relevantLines_eq_fileRows (in_file : 0 ≤ target) (bound : target < lines.length)
    (wide : (lines.length : Int) - 1 ≤ radius) :
    relevantLines lines target radius = fileRows lines target := by
  have first : (target - radius).toNat = 0 := by omega
  have all_lines : (fileRows lines target).length ≤ (target + radius + 1).toNat := by
    rw [length_fileRows]
    omega
  rw [relevantLines_eq, first, List.drop_zero, List.take_of_length_le all_lines]

/-- What a window shows around a line of a text, up to a radius. -/
structure IsWindowAround (content : String) (targetLine radius : Int) (window : ContextWindow) :
    Prop where
  target : ∃ line, window.lines.filter (·.role = .target) = [⟨targetLine, line, .target⟩]
  firstLine : window.firstLine? = some (max 1 (targetLine - radius))
  lastLine : window.lastLine? = some (min (lineCount content : Int) (targetLine + radius))
  within : max 1 (targetLine - radius) ≤ targetLine ∧
    targetLine ≤ min (lineCount content : Int) (targetLine + radius)
  whole : (lineCount content : Int) - 1 ≤ radius →
    String.intercalate "\n" (window.lines.map (·.content)) = content

theorem isWindowAround_of_windowAround (not_negative : 0 ≤ radius)
    (shown : windowAround content targetLine radius path = some window) :
    IsWindowAround content targetLine radius window := by
  obtain ⟨line, counted, at_target, rfl⟩ := windowAround_eq_some_iff.mp shown
  have count_eq : (Text.contentLines content).length = lineCount content :=
    Text.length_contentLines content
  have bound := (List.getElem?_eq_some_iff.mp at_target).1
  have in_file : targetLine - 1 < (Text.contentLines content).length := by omega
  have number_eq : targetLine - 1 + 1 = targetLine := by omega
  constructor
  · have rows := filter_target_relevantLines not_negative (by omega) at_target
    rw [number_eq] at rows
    exact ⟨line, rows⟩
  · rw [ContextWindow.firstLine?, number_head?_relevantLines not_negative (by omega) in_file,
      number_eq]
  · rw [ContextWindow.lastLine?, number_getLast?_relevantLines not_negative (by omega) in_file,
      number_eq, count_eq]
  · omega
  · intro wide
    rw [relevantLines_eq_fileRows (by omega) in_file (by rwa [count_eq]), content_fileRows,
      Text.intercalate_contentLines]

/-- A smaller window around the same line is a part of a larger one. -/
theorem exists_windowAround_infix {smaller : Int} (fits : smaller ≤ radius)
    (shown : windowAround content targetLine radius path = some window) :
    ∃ inner, windowAround content targetLine smaller path = some inner ∧
      inner.lines <:+: window.lines := by
  obtain ⟨line, counted, at_target, rfl⟩ := windowAround_eq_some_iff.mp shown
  exact ⟨_, windowAround_eq_some_iff.mpr ⟨line, counted, at_target, rfl⟩, relevantLines_infix fits⟩

/-- A window shows the lines in reach of its target, in order and each once, and asks for no others,
even if the target lies outside the file. Around a line of a text it shows the line itself exactly
once, goes as far as the radius and the text allow, and lies within the windows with a larger radius
and at last in one that shows the whole text. -/
theorem window_exact :
    (∀ (lines : List String) (target radius : Int),
      rowsByIndex? lines target radius = some (relevantLines lines target radius) ∧
        (relevantLines lines target radius).Pairwise (·.number < ·.number) ∧
          ∀ row, row ∈ relevantLines lines target radius ↔
            ∃ index : Nat, target - radius ≤ index ∧ (index : Int) ≤ target + radius ∧
              row.Shows lines target index) ∧
    ∀ (content path : String) (targetLine radius : Int), 0 ≤ radius →
      (windowAround content targetLine radius path = none ↔
        targetLine < 1 ∨ (lineCount content : Int) < targetLine) ∧
      ∀ window, windowAround content targetLine radius path = some window →
        IsWindowAround content targetLine radius window ∧
          ∀ smaller, 0 ≤ smaller → smaller ≤ radius →
            ∃ inner, windowAround content targetLine smaller path = some inner ∧
              inner.lines <:+: window.lines := by
  constructor
  · intro lines target radius
    exact ⟨rowsByIndex?_eq_some lines target radius,
      pairwise_number_relevantLines lines target radius, fun row => mem_relevantLines⟩
  · intro content path targetLine radius not_negative
    refine ⟨windowAround_eq_none_iff, fun window shown => ?_⟩
    exact ⟨isWindowAround_of_windowAround not_negative shown,
      fun smaller _ fits => exists_windowAround_infix fits shown⟩

/-- The window around the empty line behind the last line feed of a text. -/
def lastLineWindow : ContextWindow where
  path := "notes.rb"
  targetLine := 3
  lines := [⟨1, "def run", .before⟩, ⟨2, "end", .before⟩, ⟨3, "", .target⟩]
  containingFunction := "run"

/-- A window that shows a whole text, and the smaller one within it. -/
theorem window_exact_lastLine :
    windowAround "def run\nend\n" 3 2 "notes.rb" = some lastLineWindow ∧
      IsWindowAround "def run\nend\n" 3 2 lastLineWindow ∧
      ∃ inner, windowAround "def run\nend\n" 3 1 "notes.rb" = some inner ∧
        inner.lines <:+: lastLineWindow.lines := by
  have shown : windowAround "def run\nend\n" 3 2 "notes.rb" = some lastLineWindow := by
    decide +kernel
  obtain ⟨is_window, smaller⟩ :=
    (window_exact.2 "def run\nend\n" "notes.rb" 3 2 (by decide)).2 lastLineWindow shown
  exact ⟨shown, is_window, smaller 1 (by decide) (by decide)⟩

end TraceInquest
