import Mathlib.Data.List.Dedup
import TraceInquest.Proofs.Source.Names

/-! # The order of symbols

The functions and the imports of a file are those of its lines, put together line by line. A name
keeps the place at which it was first seen, so lines at the end of a file can only add names behind
those that it has.

* **`mergeNames names others`** — names, and behind them the others that are not among them.
* **`addNew_eq_mergeNames`** — adding names one by one merges them.
* **`addNew_nil_eq_dedup`** — adding names to none keeps the first of each.
* **`namesShown patterns excluded line`** — the names that a line shows.
* **`ListsFirstSeen`**, **`listsFirstSeen_namesIn`** — names in the order in which they are first
  seen.
* **`ne_empty_of_mem_extractImports`** — an import is not empty.
* **`symbols_first_seen`** — all of it together. -/

namespace TraceInquest

open Pattern

variable {patterns : List (Pattern Captured)} {excluded : List String} {content name : String}

/-! ## Merging names -/

/-- Names, and behind them the others that are not among them. -/
def mergeNames (names others : List String) : List String :=
  names ++ others.filter (· ∉ names)

theorem mergeNames_append_singleton {names : List String} (others : List String) (name : String) :
    mergeNames names (others ++ [name]) =
      if name ∈ names then mergeNames names others else mergeNames names others ++ [name] := by
  by_cases seen : name ∈ names
  · have dropped : [name].filter (· ∉ names) = [] := by simpa using seen
    rw [if_pos seen, mergeNames, mergeNames, List.filter_append, dropped, List.append_nil]
  · have kept : [name].filter (· ∉ names) = [name] := by simpa using seen
    rw [if_neg seen, mergeNames, mergeNames, List.filter_append, kept, List.append_assoc]

/-- The last of some additions counts if neither the names nor the other additions hold it. -/
theorem addNew_append_singleton (names additions : List String) (name : String) :
    addNew names (additions ++ [name]) =
      if name ∈ names ∨ name ∈ additions then addNew names additions
      else addNew names additions ++ [name] := by
  rw [addNew_append, addNew_singleton]
  exact if_congr mem_addNew rfl rfl

/-- Adding names one by one merges them with those of them that are added to nothing. -/
theorem addNew_eq_mergeNames (names additions : List String) :
    addNew names additions = mergeNames names (addNew [] additions) := by
  induction additions using List.reverseRecOn with
  | nil => exact (List.append_nil names).symm
  | append_singleton additions name ih =>
    rw [addNew_append_singleton, addNew_append_singleton]
    by_cases added : name ∈ additions
    · rw [if_pos (.inr added), if_pos (.inr added), ih]
    · rw [if_neg (not_or.mpr ⟨List.not_mem_nil, added⟩), mergeNames_append_singleton, ← ih]
      exact if_congr (or_iff_left added) rfl rfl

/-- Names that are added to none stay where they are first seen. -/
theorem addNew_nil_eq_dedup (additions : List String) :
    addNew [] additions = additions.reverse.dedup.reverse := by
  induction additions using List.reverseRecOn with
  | nil => rfl
  | append_singleton additions name ih =>
    rw [addNew_append_singleton, List.reverse_append, List.reverse_singleton, List.singleton_append,
      ih]
    by_cases added : name ∈ additions
    · rw [if_pos (.inr added), List.dedup_cons_of_mem (List.mem_reverse.mpr added)]
    · have absent : name ∉ additions.reverse := fun mem => added (List.mem_reverse.mp mem)
      rw [if_neg (not_or.mpr ⟨List.not_mem_nil, added⟩), List.dedup_cons_of_notMem absent,
        List.reverse_cons]

/-- Additions that come in parts are merged part by part. -/
theorem addNew_flatMap {α : Type} (names : List String) (parts : List α)
    (namesOf : α → List String) :
    addNew names (parts.flatMap namesOf) =
      (parts.map fun part => addNew [] (namesOf part)).foldl mergeNames names := by
  induction parts generalizing names with
  | nil => rfl
  | cons part parts ih =>
    rw [List.flatMap_cons, addNew_append, ih, addNew_eq_mergeNames]
    rfl

/-! ## The order of first appearance -/

/-- The names that a line shows: what the patterns capture in it, apart from excluded names. -/
def namesShown (patterns : List (Pattern Captured)) (excluded : List String) (line : String) :
    List String :=
  (namesInLine patterns line.toList).filter fun name => !excluded.contains name

/-- Whether the names that the lines of a text show are listed once, in the order in which they are
first seen. -/
structure ListsFirstSeen (shown extract : String → List String) : Prop where
  first_seen : ∀ content,
    extract content = ((Text.contentLines content).flatMap shown).reverse.dedup.reverse
  merge : ∀ before behind,
    extract (before ++ "\n" ++ behind) = mergeNames (extract before) (extract behind)
  by_lines : ∀ content,
    extract content = ((Text.contentLines content).map extract).foldl mergeNames []
  nodup : ∀ content, (extract content).Nodup
  keeps : ∀ before behind, extract before <+: extract (before ++ "\n" ++ behind)

theorem namesIn_append_newline (before behind : String) :
    namesIn patterns excluded (before ++ "\n" ++ behind) =
      mergeNames (namesIn patterns excluded before) (namesIn patterns excluded behind) := by
  have text : (before ++ "\n" ++ behind).toList = before.toList ++ '\n' :: behind.toList := by
    simp
  rw [namesIn, text, Text.pieces_append_cons, List.flatMap_append, addNew_append,
    addNew_eq_mergeNames, namesIn, namesIn]

theorem namesIn_eq_foldl (content : String) :
    namesIn patterns excluded content =
      ((Text.contentLines content).map (namesIn patterns excluded)).foldl mergeNames [] := by
  rw [namesIn, addNew_flatMap, Text.contentLines, List.map_map]
  refine congrArg (List.foldl mergeNames []) (List.map_congr_left fun line cut => ?_)
  -- a line has no other lines than itself
  rw [Function.comp_apply, namesIn, String.toList_ofList,
    Text.pieces_of_not_mem (Text.not_mem_of_mem_pieces cut), List.flatMap_singleton]

/-- A file has the names that its lines show, each where it is first seen. -/
theorem namesIn_eq_dedup (content : String) :
    namesIn patterns excluded content = ((Text.contentLines content).flatMap
      (namesShown patterns excluded)).reverse.dedup.reverse := by
  rw [namesIn, addNew_nil_eq_dedup, Text.contentLines, List.flatMap_map]
  simp only [namesShown, String.toList_ofList]

theorem listsFirstSeen_namesIn (patterns : List (Pattern Captured)) (excluded : List String) :
    ListsFirstSeen (namesShown patterns excluded) (namesIn patterns excluded) where
  first_seen := namesIn_eq_dedup
  merge := namesIn_append_newline
  by_lines := namesIn_eq_foldl
  nodup content := by
    rw [namesIn_eq_dedup]
    exact List.nodup_reverse.mpr (List.nodup_dedup _)
  keeps before behind := by
    rw [namesIn_append_newline]
    exact List.prefix_append _ _

/-! ## Names of imports -/

/-- Every import pattern captures something on every way to a stop, and never nothing at all. -/
theorem alwaysCaptures_of_mem_importPatterns : ∀ pattern ∈ importPatterns,
    pattern.alwaysCaptures .name = true ∧
      ∀ capture ∈ pattern.captureBodies, capture.2.takesSome = true := by
  decide +kernel

theorem ne_empty_of_mem_extractImports (mem : name ∈ extractImports content) : name ≠ "" := by
  obtain ⟨⟨line, -, in_line⟩, -⟩ := mem_namesIn.mp mem
  obtain ⟨pattern, listed, found, find, rfl⟩ := mem_namesInLine.mp in_line
  obtain ⟨always, takes⟩ := alwaysCaptures_of_mem_importPatterns pattern listed
  obtain ⟨body, body_mem, spelled⟩ := (isIn_of_mem_findAll find).spells_captured always
  intro empty
  refine ne_nil_of_spells (takes _ body_mem) spelled ?_
  rw [← String.toList_ofList (l := found.captured .name), empty]
  rfl

/-- The functions and the imports of a file are listed in the order in which its lines show them.
Functions have names of functions and are not reserved words, imports are lines with something in
them. -/
theorem symbols_first_seen :
    ListsFirstSeen (namesShown declarationPatterns nonDeclarationNames) extractFunctions ∧
    ListsFirstSeen (namesShown importPatterns []) extractImports ∧
    (∀ content, ∀ name ∈ extractFunctions content,
      IsFunctionName name.toList ∧ name ∉ nonDeclarationNames) ∧
    ∀ content, ∀ name ∈ extractImports content, name ≠ "" ∧ Text.IsLine name := by
  refine ⟨listsFirstSeen_namesIn _ _, listsFirstSeen_namesIn _ _, ?_, ?_⟩
  · intro content name mem
    exact ⟨isFunctionName_of_mem_extractFunctions mem, (mem_namesIn.mp mem).2⟩
  · intro content name mem
    exact ⟨ne_empty_of_mem_extractImports mem, isLine_of_mem_namesIn mem⟩

/-- A file that is continued with a function it has and one that it does not have. -/
theorem symbols_first_seen_save :
    ("save!" ∈ extractFunctions "def save!\nend" ∧ IsFunctionName "save!".toList ∧
      "save!" ∉ nonDeclarationNames) ∧
    ("set" ∈ extractImports "require 'set'" ∧ "set" ≠ "" ∧ Text.IsLine "set") ∧
    extractFunctions ("def save!\nend" ++ "\n" ++ "def load?\ndef save!") = ["save!", "load?"] := by
  obtain ⟨functions, -, names, imports⟩ := symbols_first_seen
  have save : "save!" ∈ extractFunctions "def save!\nend" := by decide +kernel
  have set : "set" ∈ extractImports "require 'set'" := by decide +kernel
  refine ⟨⟨save, names _ _ save⟩, ⟨set, imports _ _ set⟩, ?_⟩
  rw [functions.merge]
  decide +kernel

end TraceInquest
