import TraceInquest.Proofs.Pattern.Captures
import TraceInquest.Proofs.Text.Blank
import TraceInquest.Proofs.Text.Lines
import TraceInquest.Source.Window

/-! # What a window shows

A window shows the target line in exactly one of its rows, and nothing it shows holds a line feed.

* **`filter_target_relevantLines`** — the row of the target.
* **`windowAround_eq_some_iff`** — when there is a window, and what is in it.
* **`hasLines_of_windowAround`** — the texts of a window are lines. -/

namespace TraceInquest

/-! ## The row of the target -/

/-- A filter that keeps only what stands at one index keeps what is there. -/
theorem filter_mapIdx_of_getElem? {α β : Type} {row : Nat → α → β} {keeps : β → Bool}
    {items : List α} {index : Nat} {item : α} (at_index : items[index]? = some item)
    (only : ∀ other content, keeps (row other content) = true ↔ other = index) :
    (items.mapIdx row).filter keeps = [row index item] := by
  induction items generalizing row index with
  | nil => simp at at_index
  | cons first items ih =>
    rw [List.mapIdx_cons]
    cases index with
    | zero =>
      -- nothing behind the first item has its index
      obtain rfl : first = item := by simpa using at_index
      rw [List.filter_cons_of_pos ((only 0 first).mpr rfl), List.cons.injEq]
      refine ⟨rfl, List.filter_eq_nil_iff.mpr fun entry mem => ?_⟩
      obtain ⟨other, bound, rfl⟩ := List.mem_mapIdx.mp mem
      exact fun kept => absurd ((only _ _).mp kept) (Nat.succ_ne_zero other)
    | succ index =>
      have passed : ¬keeps (row 0 first) = true := fun kept =>
        absurd ((only 0 first).mp kept) (Nat.succ_ne_zero index).symm
      rw [List.filter_cons_of_neg passed]
      refine ih (by simpa using at_index) fun other content => ?_
      rw [only, Nat.add_right_cancel_iff]

theorem lineRole_eq_target_iff {target : Int} {index : Nat} :
    lineRole target index = .target ↔ (index : Int) = target := by
  rw [lineRole]
  split
  · simp only [reduceCtorEq, false_iff]
    omega
  · split
    · simp_all
    · simp_all

/-- The target has exactly one row, which shows its number and its text. -/
theorem filter_target_relevantLines {lines : List String} {target radius : Int} {line : String}
    (not_negative : 0 ≤ radius) (in_file : 0 ≤ target)
    (at_target : lines[target.toNat]? = some line) :
    (relevantLines lines target radius).filter (·.role = .target) =
      [⟨target + 1, line, .target⟩] := by
  have inside : ((lines.drop (target - radius).toNat).take
      ((target + radius + 1).toNat - (target - radius).toNat))[
        target.toNat - (target - radius).toNat]? = some line := by
    rw [List.getElem?_take_of_lt (by omega), List.getElem?_drop, ← at_target]
    congr 1
    omega
  rw [relevantLines, filter_mapIdx_of_getElem? inside]
  · have index_eq : (target - radius).toNat + (target.toNat - (target - radius).toNat) =
        target.toNat := by omega
    have role : lineRole target target.toNat = .target := lineRole_eq_target_iff.mpr (by omega)
    rw [index_eq, role, show ((target.toNat + 1 : Nat) : Int) = target + 1 by omega]
  · intro other content
    rw [decide_eq_true_iff, lineRole_eq_target_iff]
    omega

/-! ## The window -/

theorem windowAround_eq_some_iff {content : String} {targetLine radius : Int} {path : String}
    {window : ContextWindow} :
    windowAround content targetLine radius path = some window ↔
      ∃ line, 1 ≤ targetLine ∧
        (Text.contentLines content)[(targetLine - 1).toNat]? = some line ∧
        window = {
          path, targetLine
          lines := relevantLines (Text.contentLines content) (targetLine - 1) radius
          containingFunction :=
            containingFunction (Text.contentLines content) (targetLine - 1) } := by
  rw [windowAround]
  constructor
  · intro shown
    split at shown
    · simp at shown
    · rename_i inside
      have bound : (targetLine - 1).toNat < (Text.contentLines content).length := by omega
      exact ⟨(Text.contentLines content)[(targetLine - 1).toNat], by omega,
        List.getElem?_eq_getElem bound, (Option.some_inj.mp shown).symm⟩
  · rintro ⟨line, counted, in_file, rfl⟩
    have bound := (List.getElem?_eq_some_iff.mp in_file).1
    rw [if_neg (by omega)]

/-- The name of a declaration is a part of the line. -/
theorem infix_of_matchDeclaration? {line : List Char} {name : String}
    (declared : matchDeclaration? line = some name) : name.toList <:+: line := by
  obtain ⟨pattern, -, named⟩ := List.exists_of_findSome?_eq_some declared
  split at named
  · rename_i found find
    simp only [Option.ite_none_left_eq_some, Option.some_inj] at named
    obtain ⟨-, rfl⟩ := named
    rw [String.toList_ofList]
    exact ((Pattern.isIn_of_find? find).infix_captured .name).trans (Text.strip_infix line)
  · simp at named

/-- The function around a line is unknown, or a line at or above that line declares it. -/
theorem containingFunction_eq_or_declared (lines : List String) (target : Int) :
    containingFunction lines target = unknownFunction ∨
      ∃ line ∈ lines.take (target + 1).toNat,
        matchDeclaration? line.toList = some (containingFunction lines target) := by
  rw [containingFunction, nearestDeclaration]
  cases nearest : (lines.take (target + 1).toNat).reverse.findSome? fun line =>
      matchDeclaration? line.toList with
  | none => exact .inl rfl
  | some name =>
    obtain ⟨line, mem, declared⟩ := List.exists_of_findSome?_eq_some nearest
    exact .inr ⟨line, List.mem_reverse.mp mem, declared⟩

theorem isLine_containingFunction {lines : List String}
    (all_lines : ∀ line ∈ lines, Text.IsLine line) (target : Int) :
    Text.IsLine (containingFunction lines target) := by
  rcases containingFunction_eq_or_declared lines target with unknown | ⟨line, mem, declared⟩
  · rw [unknown]
    decide
  · have in_lines := List.mem_of_mem_take mem
    exact fun broken => all_lines line in_lines ((infix_of_matchDeclaration? declared).subset broken)

/-- Whether the texts of a window that are shown are lines. -/
structure ContextWindow.HasLines (window : ContextWindow) : Prop where
  containingFunction : Text.IsLine window.containingFunction
  content : ∀ line ∈ window.lines, Text.IsLine line.content

/-- The texts of a window into a file are lines. -/
theorem hasLines_of_windowAround {content : String} {targetLine radius : Int} {path : String}
    {window : ContextWindow} (shown : windowAround content targetLine radius path = some window) :
    window.HasLines := by
  have all_lines : ∀ line ∈ Text.contentLines content, Text.IsLine line :=
    fun line => Text.isLine_of_mem_contentLines
  obtain ⟨line, -, -, rfl⟩ := windowAround_eq_some_iff.mp shown
  refine ⟨isLine_containingFunction all_lines _, fun row mem => ?_⟩
  obtain ⟨index, bound, rfl⟩ := List.mem_mapIdx.mp mem
  exact all_lines _ (List.mem_of_mem_drop (List.mem_of_mem_take (List.getElem_mem bound)))

end TraceInquest
