import Mathlib.Data.List.Sort
import Mathlib.Data.String.Basic
import TraceInquest.Proofs.Codebase.Walk

/-! # In which order a walk lists files

A walk lists the files of a directory in the order of their names. Behind them stands what lies in
its directories, in the order of their names. Along the tree this is a strict order of the names
that lead to files, and a list that is put in groups is in the strict order of groups and walk.

* **`WalkBefore`** — whether a file stands before another one in a walk.
* **`Source.Before`** — whether a source stands before another one in a listing.
* **`pairwise_walk`** — a walk lists its sources in the order of walks.
* **`pairwise_byGroup`** — putting sources in groups keeps that order within each group. -/

namespace TraceInquest

/-! ## Names in order -/

/-- What is put in the order of names that differ is in strict order. -/
theorem pairwise_lt_mergeSort {α : Type} {name : α → String} {items : List α}
    (distinct : (items.map name).Nodup) :
    (items.mergeSort fun a b => decide (name a ≤ name b)).Pairwise (name · < name ·) := by
  have ascending : (items.mergeSort fun a b => decide (name a ≤ name b)).Pairwise
      fun a b => decide (name a ≤ name b) = true := by
    refine List.pairwise_mergeSort ?_ ?_ items
    · simpa using fun _ _ _ => le_trans
    · simpa using fun a b => le_total (name a) (name b)
  have different : ((items.mergeSort fun a b => decide (name a ≤ name b)).map name).Nodup :=
    ((List.mergeSort_perm items _).map name).nodup_iff.mpr distinct
  refine (ascending.and (List.pairwise_map.mp different)).imp ?_
  rintro a b ⟨le, ne⟩
  exact lt_of_le_of_ne (of_decide_eq_true le) ne

/-- Whether a file stands before another one in a walk. Both are given by the names that lead to
them from the directory where the walk begins. -/
inductive WalkBefore : List String → List String → Prop where
  /-- The files of a directory stand in the order of their names. -/
  | files {name other : String} (less : name < other) : WalkBefore [name] [other]
  /-- A file of a directory stands before what lies in the directories there. -/
  | fileFirst {name folder next : String} {rest : List String} :
      WalkBefore [name] (folder :: next :: rest)
  /-- What lies in the directories of a directory stands in the order of their names. -/
  | folders {folder other next next' : String} {rest rest' : List String}
      (less : folder < other) : WalkBefore (folder :: next :: rest) (other :: next' :: rest')
  /-- What lies in the same directory stands in the order of a walk that begins there. -/
  | inside {folder : String} {names others : List String} (before : WalkBefore names others) :
      WalkBefore (folder :: names) (folder :: others)

namespace WalkBefore

variable {names others : List String}

theorem not_nil_right : ¬WalkBefore names [] := by
  rintro ⟨⟩

theorem not_nil_left : ¬WalkBefore [] names := by
  rintro ⟨⟩

/-- Of two files at most one stands before the other. -/
theorem asymm (before : WalkBefore names others) : ¬WalkBefore others names := by
  induction before with
  | files less =>
    intro back
    cases back with
    | files more => exact lt_asymm less more
    | inside inner => exact not_nil_left inner
  | fileFirst =>
    intro back
    cases back with
    | inside inner => exact not_nil_right inner
  | folders less =>
    intro back
    cases back with
    | folders more => exact lt_asymm less more
    | inside _ => exact lt_irrefl _ less
  | inside before ih =>
    intro back
    cases back with
    | files _ => exact not_nil_left before
    | fileFirst => exact not_nil_right before
    | folders less => exact lt_irrefl _ less
    | inside inner => exact ih inner

/-- The order of a walk that begins in a directory is kept in a walk that comes there. -/
theorem append_left (here : List String) (before : WalkBefore names others) :
    WalkBefore (here ++ names) (here ++ others) := by
  induction here with
  | nil => exact before
  | cons folder here ih => exact .inside ih

end WalkBefore

/-! ## Walks -/

namespace WalkFilter

variable {filter : WalkFilter} {here : List String} {directory : Directory} {source : Source}

/-- What is below an entry is the walk through that directory. -/
theorem exists_of_mem_below {name : String} {sources : List Source}
    (mem : (name, sources) ∈ filter.below here directory) :
    ∃ entries, (name, entries) ∈ directory.folders ∧
      sources = filter.walk (here ++ [name]) entries := by
  rw [below_eq, List.mem_map] at mem
  obtain ⟨⟨folder, entries⟩, listed, same⟩ := mem
  obtain ⟨rfl, rfl⟩ := Prod.mk.inj same
  exact ⟨entries, List.mem_of_mem_filter listed, rfl⟩

theorem nodup_map_fst_below (proper : directory.isProper = true) :
    ((filter.below here directory).map (·.1)).Nodup := by
  rw [below_eq, List.map_map]
  exact (Directory.nodup_map_fst_folders proper).sublist (List.filter_sublist.map _)

/-- The sources of a directory stand in the order of their names. -/
theorem pairwise_sourcesIn (proper : directory.isProper = true) :
    (filter.sourcesIn here directory).Pairwise fun first second =>
      WalkBefore first.names second.names := by
  have ordered : (sortNames directory.fileNames).Pairwise (· < ·) := by
    refine @pairwise_lt_mergeSort _ id _ ?_
    rw [List.map_id]
    exact Directory.nodup_fileNames proper
  rw [sourcesIn, List.pairwise_filterMap]
  refine ordered.imp fun {name other} less first first_made second second_made => ?_
  rw [names_of_eq_some first_made, names_of_eq_some second_made]
  exact (WalkBefore.files less).append_left here

/-- A walk lists its sources in the order of walks. -/
theorem pairwise_walk (proper : directory.isProper = true) :
    (filter.walk here directory).Pairwise fun first second =>
      WalkBefore first.names second.names := by
  induction directory using Directory.folder_induction generalizing here with
  | step directory ih =>
    rw [walk, List.pairwise_append, inNameOrder, List.pairwise_flatMap]
    refine ⟨pairwise_sourcesIn proper, ⟨?_, ?_⟩, ?_⟩
    · -- within one directory the induction applies
      rintro ⟨name, sources⟩ mem
      obtain ⟨entries, listed, rfl⟩ := exists_of_mem_below (List.mem_mergeSort.mp mem)
      exact ih name entries listed (Directory.isProper_of_mem_folders proper listed)
    · -- the names of the directories decide
      refine (pairwise_lt_mergeSort (nodup_map_fst_below proper)).imp_of_mem ?_
      rintro ⟨name, sources⟩ ⟨other, others⟩ mem other_mem less first first_mem second second_mem
      obtain ⟨entries, listed, rfl⟩ := exists_of_mem_below (List.mem_mergeSort.mp mem)
      obtain ⟨inner, other_listed, rfl⟩ := exists_of_mem_below (List.mem_mergeSort.mp other_mem)
      obtain ⟨next, rest, names⟩ :=
        exists_names_of_mem_walk (Directory.isProper_of_mem_folders proper listed) first_mem
      obtain ⟨next', rest', names'⟩ :=
        exists_names_of_mem_walk (Directory.isProper_of_mem_folders proper other_listed) second_mem
      rw [names, names', List.append_assoc, List.append_assoc]
      exact (WalkBefore.folders less).append_left here
    · -- a file of the directory itself stands before what is in its directories
      intro first first_mem second second_mem
      obtain ⟨name, -, -, -, names⟩ := mem_sourcesIn.mp first_mem
      obtain ⟨⟨folder, sources⟩, mem, second_mem⟩ := List.mem_flatMap.mp second_mem
      obtain ⟨entries, listed, rfl⟩ := exists_of_mem_below (List.mem_mergeSort.mp mem)
      obtain ⟨next, rest, names'⟩ :=
        exists_names_of_mem_walk (Directory.isProper_of_mem_folders proper listed) second_mem
      rw [names, names', List.append_assoc]
      exact WalkBefore.fileFirst.append_left here

end WalkFilter

/-! ## Groups -/

/-- Whether a source stands before another one in a listing: in an earlier group, or earlier in
the walk. -/
def Source.Before (first second : Source) : Prop :=
  first.group < second.group ∨
    first.group = second.group ∧ WalkBefore first.names second.names

instance : Std.Asymm Source.Before where
  asymm first second before back := by
    rcases before with less | ⟨same, before⟩
    · rcases back with more | ⟨same, -⟩
      · exact Nat.lt_asymm less more
      · exact Nat.ne_of_lt less same.symm
    · rcases back with more | ⟨-, back⟩
      · exact Nat.ne_of_lt more same.symm
      · exact before.asymm back

/-- Sources that stand in the order of a walk are in strict order when they are put in groups. -/
theorem pairwise_byGroup {groups : Nat} {sources : List Source}
    (ordered : sources.Pairwise fun first second => WalkBefore first.names second.names) :
    (byGroup groups sources).Pairwise Source.Before := by
  rw [byGroup, List.pairwise_flatMap]
  constructor
  · intro group _
    refine (ordered.filter _).imp_of_mem fun {first second} mem other_mem before => ?_
    have same := eq_of_beq (List.mem_filter.mp mem).2
    have other_same := eq_of_beq (List.mem_filter.mp other_mem).2
    exact .inr ⟨same.trans other_same.symm, before⟩
  · refine List.pairwise_lt_range.imp fun {group other} less first mem second other_mem => ?_
    have same := eq_of_beq (List.mem_filter.mp mem).2
    have other_same := eq_of_beq (List.mem_filter.mp other_mem).2
    exact .inl (by rwa [same, other_same])

end TraceInquest
