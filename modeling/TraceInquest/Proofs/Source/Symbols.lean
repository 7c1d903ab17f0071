import TraceInquest.Proofs.Pattern.Passage
import TraceInquest.Proofs.Source.Window
import TraceInquest.Proofs.Text.Lines
import TraceInquest.Source.Symbols

/-! # Which functions a file declares

The function around a line is looked for with the first find of each pattern, the functions of a
file with all finds in all lines. A first find is one of all finds, so the function around a line is
one of those of the file.

* **`mem_addNew`**, **`mem_namesIn`** — which names are listed.
* **`mem_extractFunctions_of_matchDeclaration?`** — a declared name is a function of the file.
* **`containingFunction_eq_or_mem`** — the function around a line. -/

namespace TraceInquest

/-! ## Names -/

theorem addNew_cons (names : List String) (first : String) (others : List String) :
    addNew names (first :: others) = addNew (addNew names [first]) others :=
  addNew_append names [first] others

theorem addNew_singleton (names : List String) (name : String) :
    addNew names [name] = if name ∈ names then names else names ++ [name] := by simp [addNew]

theorem mem_addNew {names additions : List String} {name : String} :
    name ∈ addNew names additions ↔ name ∈ names ∨ name ∈ additions := by
  induction additions generalizing names with
  | nil => simp
  | cons first others ih =>
    have one : name ∈ addNew names [first] ↔ name ∈ names ∨ name = first := by
      rw [addNew_singleton]
      by_cases seen : first ∈ names
      · rw [if_pos seen]
        exact ⟨.inl, fun either => either.elim id fun is_first => is_first ▸ seen⟩
      · rw [if_neg seen, List.mem_append, List.mem_singleton]
    rw [addNew_cons, ih, one, List.mem_cons, or_assoc]

/-- A name is listed if a pattern captures it in some line and it is not excluded. -/
theorem mem_namesIn {patterns : List (Pattern Captured)} {excluded : List String}
    {content name : String} :
    name ∈ namesIn patterns excluded content ↔
      (∃ line ∈ Text.pieces content.toList, name ∈ namesInLine patterns line) ∧
        name ∉ excluded := by
  simp [namesIn, mem_addNew, List.mem_flatMap, List.mem_filter, ← and_assoc]

/-- Additions of one name alone add it once. -/
theorem addNew_eq_singleton {additions : List String} {name : String} (nonempty : additions ≠ [])
    (all : ∀ added ∈ additions, added = name) : addNew [] additions = [name] := by
  have again {additions : List String} (all : ∀ added ∈ additions, added = name) :
      addNew [name] additions = [name] := by
    induction additions with
    | nil => rfl
    | cons first others ih =>
      obtain ⟨rfl, others_same⟩ := List.forall_mem_cons.mp all
      simpa [addNew] using ih others_same
  obtain ⟨first, others, rfl⟩ := List.exists_cons_of_ne_nil nonempty
  obtain ⟨rfl, others_same⟩ := List.forall_mem_cons.mp all
  simpa [addNew] using again others_same

/-- In a line in which the patterns capture one name, apart from excluded ones, it is the only one. -/
theorem namesIn_eq_singleton {patterns : List (Pattern Captured)} {excluded : List String}
    {line name : String} (is_line : Text.IsLine line) (allowed : name ∉ excluded)
    (named : name ∈ namesInLine patterns line.toList)
    (only : ∀ added ∈ namesInLine patterns line.toList, added ∉ excluded → added = name) :
    namesIn patterns excluded line = [name] := by
  have kept {added : String} :
      added ∈ (namesInLine patterns line.toList).filter (fun name => !excluded.contains name) ↔
        added ∈ namesInLine patterns line.toList ∧ added ∉ excluded := by simp
  rw [namesIn, Text.pieces_of_not_mem is_line, List.flatMap_singleton]
  refine addNew_eq_singleton (List.ne_nil_of_mem (kept.mpr ⟨named, allowed⟩)) fun added mem => ?_
  exact only added (kept.mp mem).1 (kept.mp mem).2

/-! ## Declarations -/

/-- The name that a line declares is captured by a declaration pattern, and not excluded. -/
theorem mem_namesInLine_of_matchDeclaration? {line : List Char} {name : String}
    (declared : matchDeclaration? line = some name) :
    name ∈ namesInLine declarationPatterns line ∧ name ∉ nonDeclarationNames := by
  obtain ⟨pattern, mem, named⟩ := List.exists_of_findSome?_eq_some declared
  split at named
  · rename_i found find
    simp only [Option.ite_none_left_eq_some, Option.some_inj] at named
    obtain ⟨allowed, rfl⟩ := named
    refine ⟨List.mem_flatMap.mpr ⟨pattern, mem, ?_⟩, by simpa using allowed⟩
    exact List.mem_map_of_mem (Pattern.mem_findAll_of_find? find)
  · simp at named

/-- What a line of a file declares is a function of the file. -/
theorem mem_extractFunctions_of_matchDeclaration? {content name : String} {line : List Char}
    (cut : line ∈ Text.pieces content.toList) (declared : matchDeclaration? line = some name) :
    name ∈ extractFunctions content ∧ name ∉ nonDeclarationNames := by
  obtain ⟨mem, allowed⟩ := mem_namesInLine_of_matchDeclaration? declared
  exact ⟨mem_namesIn.mpr ⟨⟨line, cut, mem⟩, allowed⟩, allowed⟩

/-- The function around a line of a file is unknown, or one of the functions of the file. -/
theorem containingFunction_eq_or_mem (content : String) (target : Int) :
    containingFunction (Text.contentLines content) target = unknownFunction ∨
      containingFunction (Text.contentLines content) target ∈ extractFunctions content ∧
        containingFunction (Text.contentLines content) target ∉ nonDeclarationNames := by
  refine (containingFunction_eq_or_declared (Text.contentLines content) target).imp_right ?_
  rintro ⟨line, mem, declared⟩
  obtain ⟨piece, cut, rfl⟩ := List.mem_map.mp (List.mem_of_mem_take mem)
  rw [String.toList_ofList] at declared
  exact mem_extractFunctions_of_matchDeclaration? cut declared

end TraceInquest
