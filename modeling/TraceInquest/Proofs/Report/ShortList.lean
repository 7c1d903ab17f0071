import TraceInquest.Proofs.Text.Lines
import TraceInquest.Report.Codebase

/-! # Reading a short list back

A short list has its items between commas, and dots behind them if items were left out. Where no
item holds a comma or a full stop, the items that are shown and whether there are more can be read
back from it.

* **`cutAtCommas`** — the texts between commas that a space follows.
* **`readShortList`** — the items of a short list and whether there are more.
* **`readShortList_shortList`** — what was shown is read back. -/

namespace TraceInquest

/-! ## Cutting at commas -/

/-- The texts between commas that a space follows. -/
def cutAtCommas : List Char → List (List Char)
  | [] => [[]]
  | ',' :: ' ' :: rest => [] :: cutAtCommas rest
  | c :: rest => Text.extendHead c (cutAtCommas rest)

theorem cutAtCommas_cons {c : Char} (other : c ≠ ',') (rest : List Char) :
    cutAtCommas (c :: rest) = Text.extendHead c (cutAtCommas rest) := by
  rw [cutAtCommas]
  exact fun _ comma _ => absurd comma other

/-- A text without commas is not cut. -/
theorem cutAtCommas_of_not_mem {item : List Char} (commaless : ',' ∉ item) :
    cutAtCommas item = [item] := by
  induction item with
  | nil => rfl
  | cons c item ih =>
    obtain ⟨other, commaless⟩ := List.ne_and_not_mem_of_not_mem_cons commaless
    rw [cutAtCommas_cons other.symm, ih commaless]
    rfl

/-- A text without commas is cut off at the comma behind it. -/
theorem cutAtCommas_append {item : List Char} (commaless : ',' ∉ item) (rest : List Char) :
    cutAtCommas (item ++ ',' :: ' ' :: rest) = item :: cutAtCommas rest := by
  induction item with
  | nil => rfl
  | cons c item ih =>
    obtain ⟨other, commaless⟩ := List.ne_and_not_mem_of_not_mem_cons commaless
    rw [List.cons_append, cutAtCommas_cons other.symm, ih commaless]
    rfl

/-- Items without commas are cut apart. -/
theorem cutAtCommas_intercalate {items : List String} (nonempty : items ≠ [])
    (commaless : ∀ item ∈ items, ',' ∉ item.toList) :
    cutAtCommas (String.intercalate ", " items).toList = items.map String.toList := by
  induction items with
  | nil => exact absurd rfl nonempty
  | cons item items ih =>
    obtain ⟨item_commaless, others_commaless⟩ := List.forall_mem_cons.mp commaless
    by_cases last : items = []
    · subst last
      rw [String.intercalate_singleton, cutAtCommas_of_not_mem item_commaless]
      rfl
    · rw [String.intercalate_cons_of_ne_nil last, String.toList_append, String.toList_append,
        List.append_assoc, show ", ".toList = [',', ' '] from rfl, List.cons_append,
        List.cons_append, List.nil_append, cutAtCommas_append item_commaless,
        ih last others_commaless]
      rfl

/-! ## Characters of a short list -/

/-- Other characters than commas and spaces are those of an item. -/
theorem exists_mem_of_mem_intercalate {items : List String} {c : Char}
    (mem : c ∈ (String.intercalate ", " items).toList) (between : c ∉ [',', ' ']) :
    ∃ item ∈ items, c ∈ item.toList :=
  (Text.mem_of_mem_intercalate mem).resolve_left between

/-- A short list of lines is a line. -/
theorem isLine_shortList {limit : Nat} {items : List String}
    (lines : ∀ item ∈ items, Text.IsLine item) : Text.IsLine (shortList limit items) := by
  rw [shortList, Text.isLine_append]
  refine ⟨fun broken => ?_, by split <;> decide⟩
  obtain ⟨item, mem, in_item⟩ := exists_mem_of_mem_intercalate broken (by decide)
  exact lines item (List.mem_of_mem_take mem) in_item

/-! ## Reading -/

/-- The items of a short list, and whether there are more. -/
def readShortList (text : String) : List String × Bool :=
  if "...".toList.isSuffixOf text.toList then
    ((cutAtCommas (text.toList.take (text.toList.length - 3))).map String.ofList, true)
  else ((cutAtCommas text.toList).map String.ofList, false)

/-- What is shown of a list of items without commas and full stops is read back. -/
theorem readShortList_shortList {limit : Nat} {items : List String} (positive : 0 < limit)
    (nonempty : items ≠ [])
    (plain : ∀ item ∈ items, ',' ∉ item.toList ∧ '.' ∉ item.toList) :
    readShortList (shortList limit items) =
      (items.take limit, decide (limit < items.length)) := by
  have shown_plain : ∀ item ∈ items.take limit, ',' ∉ item.toList ∧ '.' ∉ item.toList :=
    fun item mem => plain item (List.mem_of_mem_take mem)
  have shown_nonempty : items.take limit ≠ [] := by
    rw [Ne, List.take_eq_nil_iff]
    rintro (nothing | none)
    · omega
    · exact nonempty none
  have cut : (cutAtCommas (String.intercalate ", " (items.take limit)).toList).map String.ofList =
      items.take limit := by
    rw [cutAtCommas_intercalate shown_nonempty fun item mem => (shown_plain item mem).1,
      List.map_map]
    simp [Function.comp_def]
  rw [shortList, readShortList]
  by_cases more : limit < items.length
  · have dots : "...".toList.isSuffixOf
        (String.intercalate ", " (items.take limit) ++ "...").toList = true := by
      rw [String.toList_append, List.isSuffixOf_iff_suffix]
      exact List.suffix_append _ _
    rw [if_pos more, if_pos dots, String.toList_append, List.length_append,
      show "...".toList.length = 3 from rfl, Nat.add_sub_cancel, List.take_left, cut,
      decide_eq_true more]
  · have no_dots : "...".toList.isSuffixOf
        (String.intercalate ", " (items.take limit)).toList = false := by
      rw [Bool.eq_false_iff, Ne, List.isSuffixOf_iff_suffix]
      intro ends
      -- a full stop would be one of an item
      obtain ⟨item, mem, in_item⟩ := exists_mem_of_mem_intercalate
        (ends.subset (by decide : '.' ∈ "...".toList)) (by decide)
      exact (shown_plain item mem).2 in_item
    rw [if_neg more, String.append_empty, no_dots, if_neg Bool.false_ne_true, cut,
      decide_eq_false more]

end TraceInquest
