import Mathlib.Data.List.Nodup
import TraceInquest.Proofs.FileSystem.Directory
import TraceInquest.Proofs.Path

/-! # What a walk lists

A walk lists the files of a directory that count, and then what the walks through its directories
list. Along the tree this says which files are listed.

* **`below_eq`** — the walks through the directories that are entered.
* **`WalkFilter.entersAll`** — whether a walk goes on through directories that lie one in the
  other.
* **`mem_walk_iff`** — the sources that a walk lists.
* **`mem_byGroup`** — putting sources in groups loses none.
* **`exists_relative?_foldl_join`** — the names that a walk carries are those that can be read off
  the path of the directory it is in. -/

namespace TraceInquest

namespace WalkFilter

variable {filter : WalkFilter} {here : List String} {directory : Directory} {source : Source}

/-! ## One directory -/

/-- The sources among the files of a directory. -/
theorem mem_sourcesIn :
    source ∈ filter.sourcesIn here directory ↔
      ∃ name ∈ directory.fileNames, filter.group? name = some source.group ∧
        filter.ignores (Path.ofComponents (here ++ [name])) = false ∧
        source.names = here ++ [name] := by
  rw [sourcesIn, List.mem_filterMap]
  simp only [sortNames, List.mem_mergeSort]
  refine exists_congr fun name => and_congr_right fun _ => ?_
  cases filter.group? name with
  | none => simp
  | some group =>
    cases filter.ignores (Path.ofComponents (here ++ [name])) with
    | true => simp
    | false =>
      obtain ⟨source_group, names⟩ := source
      simp [eq_comm]

/-- A source tells from which file name it was made. -/
theorem names_of_eq_some {name : String}
    (made : (match filter.group? name with
      | some group =>
        let names := here ++ [name]
        if filter.ignores (Path.ofComponents names) then none else some ⟨group, names⟩
      | none => none : Option Source) = some source) : source.names = here ++ [name] := by
  split at made
  · simp only at made
    split at made
    · simp at made
    · rw [← Option.some.inj made]
  · simp at made

/-- The walks through the directories that are entered, each with the name of its directory. -/
theorem below_eq (filter : WalkFilter) (here : List String) (directory : Directory) :
    filter.below here directory =
      (directory.folders.filter fun folder => filter.enters (here ++ [folder.1]) folder.1).map
        fun folder => (folder.1, filter.walk (here ++ [folder.1]) folder.2) := by
  induction directory with
  | empty => rfl
  | file name bytes others ih => exact ih
  | folder name entries others _ ih =>
    rw [below, Directory.folders, List.filter_cons]
    by_cases entered : filter.enters (here ++ [name]) name = true
    · simp only [entered, if_true, List.map_cons, ih]
      rfl
    · simp only [entered, ih]
      rfl

/-- Order apart, results for directories are put one behind the other. -/
theorem inNameOrder_perm (results : List (String × List Source)) :
    (inNameOrder results).Perm (results.flatMap (·.2)) :=
  (List.mergeSort_perm results _).flatMap_right _

/-- A walk lists the sources of its directory and those of the walks through the directories that
are entered. -/
theorem mem_walk :
    source ∈ filter.walk here directory ↔
      source ∈ filter.sourcesIn here directory ∨
        ∃ name entries, (name, entries) ∈ directory.folders ∧
          filter.enters (here ++ [name]) name = true ∧
          source ∈ filter.walk (here ++ [name]) entries := by
  rw [walk, List.mem_append, (inNameOrder_perm _).mem_iff, below_eq, List.flatMap_map,
    List.mem_flatMap]
  simp only [List.mem_filter, Prod.exists, and_assoc]

/-! ## Directories one in the other -/

/-- Whether a walk that is in a directory goes on through directories that lie one in the
other. -/
def entersAll (filter : WalkFilter) : List String → List String → Prop
  | _, [] => True
  | here, name :: rest =>
    filter.enters (here ++ [name]) name = true ∧ filter.entersAll (here ++ [name]) rest

/-- A walk goes on through directories if it enters each of those on the way to the last. -/
theorem entersAll_iff {folders : List String} :
    filter.entersAll here folders ↔
      (∀ folder ∈ folders, filter.excludes folder = false) ∧
      (∀ above, above <+: folders → above ≠ [] →
        filter.reaches (Path.ofComponents (here ++ above)) = true) ∧
      ∀ above, above <+: folders → above ≠ [] →
        filter.ignores (Path.ofComponents (here ++ above) ++ "/") = false := by
  -- what the way begins with is its first name, or goes on behind it
  have forall_nonempty_start {name : String} {rest : List String} {p : List String → Prop} :
      (∀ above, above <+: name :: rest → above ≠ [] → p above) ↔
        p [name] ∧ ∀ above, above <+: rest → above ≠ [] → p (name :: above) := by
    simp only [List.prefix_cons_iff]
    constructor
    · intro all
      exact ⟨all [name] (.inr ⟨[], rfl, List.nil_prefix⟩) (by simp),
        fun above initial _ => all (name :: above) (.inr ⟨above, rfl, initial⟩) (by simp)⟩
    · rintro ⟨one, more⟩ above (rfl | ⟨tail, rfl, initial⟩) nonempty
      · exact absurd rfl nonempty
      · by_cases last : tail = []
        · exact last ▸ one
        · exact more tail initial last
  induction folders generalizing here with
  | nil =>
    simp only [entersAll, List.prefix_nil, true_iff]
    refine ⟨by simp, ?_, ?_⟩ <;> exact fun above none some => absurd none some
  | cons name rest ih =>
    rw [forall_nonempty_start, forall_nonempty_start]
    simp only [entersAll, ih, enters, Bool.and_eq_true, Bool.not_eq_true', List.forall_mem_cons,
      List.append_assoc, List.singleton_append]
    tauto

/-- The sources that a walk lists: a file below its directory, of a name that counts, to which
directories lead that are all entered, and which is not ignored itself. -/
theorem mem_walk_iff (proper : directory.isProper = true) :
    source ∈ filter.walk here directory ↔
      ∃ folders name, (∃ bytes, directory.find? (folders ++ [name]) = some (.file bytes)) ∧
        filter.group? name = some source.group ∧ filter.entersAll here folders ∧
        filter.ignores (Path.ofComponents (here ++ folders ++ [name])) = false ∧
        source.names = here ++ folders ++ [name] := by
  induction directory using Directory.folder_induction generalizing here with
  | step directory ih =>
    -- the file is one of the directory itself or lies below the first directory on the way
    rw [mem_walk, mem_sourcesIn]
    constructor
    · rintro (⟨name, listed, group, kept, names⟩ | ⟨name, entries, listed, entered, later⟩)
      · obtain ⟨bytes, found⟩ := (Directory.mem_fileNames_iff proper).mp listed
        refine ⟨[], name, ⟨bytes, ?_⟩, group, trivial, ?_, ?_⟩
        · rw [List.nil_append, Directory.find?_singleton, found]
        · rwa [List.append_nil]
        · rwa [List.append_nil]
      · have entries_proper := Directory.isProper_of_mem_folders proper listed
        obtain ⟨folders, file, ⟨bytes, found⟩, group, all_entered, kept, names⟩ :=
          (ih name entries listed entries_proper).mp later
        refine ⟨name :: folders, file, ⟨bytes, ?_⟩, group, ⟨entered, all_entered⟩, ?_, ?_⟩
        · exact (Directory.find?_cons (by simp)).mpr
            ⟨entries, (Directory.mem_folders_iff proper).mp listed, found⟩
        · simpa using kept
        · simpa using names
    · rintro ⟨folders, file, ⟨bytes, found⟩, group, entered, kept, names⟩
      cases folders with
      | nil =>
        rw [List.nil_append, Directory.find?_singleton] at found
        rw [List.append_nil] at kept names
        exact .inl ⟨file, (Directory.mem_fileNames_iff proper).mpr ⟨bytes, found⟩, group, kept,
          names⟩
      | cons name folders =>
        obtain ⟨entries, name_found, found⟩ := (Directory.find?_cons (by simp)).mp found
        have listed := (Directory.mem_folders_iff proper).mpr name_found
        have entries_proper := Directory.isProper_of_mem_folders proper listed
        refine .inr ⟨name, entries, listed, entered.1, ?_⟩
        exact (ih name entries listed entries_proper).mpr
          ⟨folders, file, ⟨bytes, found⟩, group, entered.2, by simpa using kept,
            by simpa using names⟩

/-- The names of a source that a walk lists go on behind those that lead to the walk. -/
theorem exists_names_of_mem_walk (proper : directory.isProper = true)
    (listed : source ∈ filter.walk here directory) :
    ∃ next rest, source.names = here ++ next :: rest := by
  obtain ⟨folders, name, -, -, -, -, names⟩ := (mem_walk_iff proper).mp listed
  obtain ⟨next, rest, more⟩ := List.exists_cons_of_ne_nil (by simp : folders ++ [name] ≠ [])
  exact ⟨next, rest, by rw [names, List.append_assoc, more]⟩

end WalkFilter

/-! ## Names and paths -/

/-- A walk carries names. One that carries the path of its directory, with name after name joined
behind the root, would take the way there from the root and join the name of an entry behind it: but
for dots, that has the same names. -/
theorem exists_relative?_foldl_join {working folders : List String} {root name : String}
    (named : root ≠ "") (valid : ∀ part ∈ folders ++ [name], isValidName part = true) :
    ∃ above, Path.relative? working (folders.foldl Path.join root) root = some above ∧
      Path.namingComponents (Path.join above name) = folders ++ [name] := by
  have plain : ∀ part ∈ folders ++ [name],
      part ≠ "" ∧ part ≠ "." ∧ part ≠ ".." ∧ '/' ∉ part.toList := by
    intro part mem
    have slashless := not_mem_of_isValidName (valid part mem)
    have checked := valid part mem
    simp only [isValidName, Bool.and_eq_true, bne_iff_ne] at checked
    obtain ⟨⟨⟨⟨not_empty, not_dot⟩, not_dots⟩, -⟩, -⟩ := checked
    exact ⟨not_empty, not_dot, not_dots, slashless⟩
  obtain ⟨folders_plain, name_plain⟩ := List.forall_mem_append.mp plain
  obtain ⟨not_empty, not_dot, -, slashless⟩ := name_plain name List.mem_cons_self
  obtain ⟨nonempty, goal⟩ := Path.absolute_foldl_join named folders_plain
  refine ⟨_, Path.relative?_of_absolute nonempty goal, ?_⟩
  rw [Path.namingComponents_join (Path.isAbsolute_of_not_mem slashless),
    Path.namingComponents_of_ne not_empty not_dot slashless]
  congr 1
  -- the way from the root to itself is a dot
  by_cases top : folders = []
  · subst top
    decide
  · rw [if_neg (by simpa using top)]
    exact Path.namingComponents_ofComponents top fun part mem =>
      ⟨(folders_plain part mem).1, (folders_plain part mem).2.1, (folders_plain part mem).2.2.2⟩

/-! ## Groups -/

/-- Putting sources in groups loses none whose group is there. -/
theorem mem_byGroup {groups : Nat} {sources : List Source} {source : Source} :
    source ∈ byGroup groups sources ↔ source ∈ sources ∧ source.group < groups := by
  simp only [byGroup, List.mem_flatMap, List.mem_range, List.mem_filter, beq_iff_eq]
  constructor
  · rintro ⟨group, there, mem, rfl⟩
    exact ⟨mem, there⟩
  · rintro ⟨mem, there⟩
    exact ⟨source.group, there, mem, rfl⟩

end TraceInquest
