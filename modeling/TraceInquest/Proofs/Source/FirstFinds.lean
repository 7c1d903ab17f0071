import TraceInquest.Proofs.Source.NearestDeclaration

/-! # First finds and all finds

The function around a line is looked for with the first find of each pattern, the functions of a
file with all finds. Both see the same lines, except for those in which reserved words stand in
front of every name.

* **`HidesNames line`** — whether each pattern finds a reserved word first, though one of them finds
  a name further on.
* **`matchDeclaration?_eq_none_iff`**, **`extractFunctions_eq_nil_iff`** — the lines without
  declarations, and the files without functions.
* **`declares_iff_extracts`** — where the two agree. -/

namespace TraceInquest

open Pattern

variable {content : String} {line : List Char}

/-! ## Reserved words -/

/-- Whether what a find captures is a word that is never a name. -/
def Found.IsReserved (found : Found Captured) : Prop :=
  String.ofList (found.captured .name) ∈ nonDeclarationNames

/-- Whether a line hides its names: each pattern that is found in it finds a reserved word first,
though one of them finds a name further on. -/
structure HidesNames (line : List Char) : Prop where
  first : ∀ pattern ∈ declarationPatterns, ∀ found ∈ pattern.find? (Text.strip line),
    found.IsReserved
  later : ∃ pattern ∈ declarationPatterns, ∃ found ∈ pattern.findAll (Text.strip line),
    ¬found.IsReserved

/-- A line declares nothing if each pattern that is found in it finds a reserved word first. -/
theorem matchDeclaration?_eq_none_iff :
    matchDeclaration? line = none ↔
      ∀ pattern ∈ declarationPatterns, ∀ found ∈ pattern.find? (Text.strip line),
        found.IsReserved := by
  rw [matchDeclaration?, List.findSome?_eq_none_iff]
  refine forall₂_congr fun pattern _ => ?_
  cases find : pattern.find? (Text.strip line) with
  | none => simp
  | some found => simp [Found.IsReserved]

/-- A file has no functions if every find in its lines is a reserved word. -/
theorem extractFunctions_eq_nil_iff :
    extractFunctions content = [] ↔
      ∀ line ∈ Text.contentLines content, ∀ pattern ∈ declarationPatterns,
        ∀ found ∈ pattern.findAll (Text.strip line.toList), found.IsReserved := by
  rw [List.eq_nil_iff_forall_not_mem]
  constructor
  · intro none_listed line mem pattern listed found find
    by_contra allowed
    obtain ⟨piece, cut, rfl⟩ := List.mem_map.mp mem
    rw [String.toList_ofList] at find
    have in_line := mem_namesInLine.mpr ⟨pattern, listed, found, find, rfl⟩
    exact none_listed _ (mem_namesIn.mpr ⟨⟨piece, cut, in_line⟩, allowed⟩)
  · intro all_reserved name listed
    obtain ⟨⟨piece, cut, in_line⟩, allowed⟩ := mem_namesIn.mp listed
    obtain ⟨pattern, pattern_mem, found, find, rfl⟩ := mem_namesInLine.mp in_line
    refine allowed (all_reserved (String.ofList piece) (List.mem_map_of_mem cut) pattern
      pattern_mem found ?_)
    rwa [String.toList_ofList]

/-- A file has no functions if its lines declare none and hide none. -/
theorem extractFunctions_eq_nil_iff_undeclared :
    extractFunctions content = [] ↔
      (∀ line ∈ Text.contentLines content, matchDeclaration? line.toList = none) ∧
        ∀ line ∈ Text.contentLines content, ¬HidesNames line.toList := by
  rw [extractFunctions_eq_nil_iff]
  constructor
  · intro all_reserved
    refine ⟨fun line mem => ?_, fun line mem hides => ?_⟩
    · rw [matchDeclaration?_eq_none_iff]
      intro pattern listed found find
      exact all_reserved line mem pattern listed found (mem_findAll_of_find? find)
    · obtain ⟨pattern, listed, found, find, allowed⟩ := hides.later
      exact allowed (all_reserved line mem pattern listed found find)
  · rintro ⟨undeclared, none_hides⟩ line mem pattern listed found find
    by_contra allowed
    have first := matchDeclaration?_eq_none_iff.mp (undeclared line mem)
    exact none_hides line mem ⟨first, pattern, listed, found, find, allowed⟩

/-! ## The function around a line -/

/-- The first lines of a text. -/
def firstLines (content : String) (count : Nat) : String :=
  String.intercalate "\n" ((Text.contentLines content).take count)

theorem contentLines_firstLines {count : Nat} (counted : 1 ≤ count) :
    Text.contentLines (firstLines content count) = (Text.contentLines content).take count := by
  refine Text.contentLines_intercalate ?_ fun line mem =>
    Text.isLine_of_mem_contentLines (List.mem_of_mem_take mem)
  rw [Ne, List.take_eq_nil_iff, not_or, ← List.length_eq_zero_iff, Text.length_contentLines]
  omega

/-- A line declares nothing exactly if it has no functions, unless it hides names; and the function
around a line of a file is unknown exactly if the lines up to it have no functions, unless none of
them declares one and one of them hides names. -/
theorem declares_iff_extracts (line content : String) (count : Nat) :
    (Text.IsLine line →
      ((matchDeclaration? line.toList = none ↔ extractFunctions line = []) ↔
        ¬HidesNames line.toList)) ∧
    (1 ≤ count →
      ((containingFunction (Text.contentLines content) ((count : Int) - 1) = unknownFunction ↔
          extractFunctions (firstLines content count) = []) ↔
        ¬(containingFunction (Text.contentLines content) ((count : Int) - 1) = unknownFunction ∧
          ∃ line ∈ (Text.contentLines content).take count, HidesNames line.toList))) := by
  constructor
  · intro is_line
    have hidden : HidesNames line.toList → matchDeclaration? line.toList = none :=
      fun hides => matchDeclaration?_eq_none_iff.mpr hides.first
    rw [extractFunctions_eq_nil_iff_undeclared, Text.contentLines_of_isLine is_line]
    simp only [List.mem_singleton, forall_eq]
    tauto
  · intro counted
    have up_to : ((count : Int) - 1 + 1).toNat = count := by omega
    rw [extractFunctions_eq_nil_iff_undeclared, contentLines_firstLines counted,
      containingFunction_eq_unknown_iff, up_to, ← not_forall_not]
    simp only [not_and]
    tauto

/-- A line in which a reserved word stands in front of a name. -/
def catchThen : String := "catch: function () \x7b\x7d, then: function () \x7b\x7d"

theorem matchDeclaration?_catchThen : matchDeclaration? catchThen.toList = none := by
  decide +kernel

theorem extractFunctions_catchThen : extractFunctions catchThen = ["then"] := by
  decide +kernel

/-- A reserved word alone hides nothing, one in front of a name does. -/
theorem declares_iff_extracts_catchThen :
    ¬HidesNames "  if (open) \x7b".toList ∧ HidesNames catchThen.toList ∧
      ∃ line ∈ (Text.contentLines ("x\n" ++ catchThen)).take 2, HidesNames line.toList := by
  have alone : matchDeclaration? "  if (open) \x7b".toList = none ∧
      extractFunctions "  if (open) \x7b" = [] := by decide +kernel
  have in_front : ¬(matchDeclaration? catchThen.toList = none ↔ extractFunctions catchThen = []) := by
    rw [extractFunctions_catchThen]
    exact fun agree => List.cons_ne_nil _ _ (agree.mp matchDeclaration?_catchThen)
  have above : ¬(containingFunction (Text.contentLines ("x\n" ++ catchThen)) ((2 : Nat) - 1) =
        unknownFunction ↔
      extractFunctions (firstLines ("x\n" ++ catchThen) 2) = []) := by decide +kernel
  obtain ⟨of_catchThen, of_lines⟩ := declares_iff_extracts catchThen ("x\n" ++ catchThen) 2
  refine ⟨?_, ?_, ?_⟩
  · exact ((declares_iff_extracts _ "" 1).1 (by decide)).mp (iff_of_true alone.1 alone.2)
  · exact not_not.mp fun shows => in_front ((of_catchThen (by decide)).mpr shows)
  · exact (not_not.mp fun shows => above ((of_lines (by decide)).mpr shows)).2

/-- The function around the line is looked for in the word that stands first, and the one behind it
is a function of the file all the same. -/
theorem not_forall_declares_iff_extracts :
    ¬∀ line : String, Text.IsLine line →
      (matchDeclaration? line.toList = none ↔ extractFunctions line = []) := by
  intro agree
  have unlisted := (agree catchThen (by decide)).mp matchDeclaration?_catchThen
  rw [extractFunctions_catchThen] at unlisted
  cases unlisted

end TraceInquest
