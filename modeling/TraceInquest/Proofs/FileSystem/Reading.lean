import TraceInquest.Proofs.Except
import TraceInquest.Proofs.FileSystem.Directory
import TraceInquest.Proofs.Path

/-! # What paths denote

A path denotes what the names lead to that following its components gives.

* **`get_eq_ok_iff`**, **`entries?_eq_some_iff`** — what it means that a path denotes something.
* **`isProper_of_entries?`** — the directories that paths denote are proper.
* **`entries?_append_slashes`** — slashes behind the path of a directory change nothing but its
  length. -/

namespace TraceInquest

/-- The nodes that names lead to in a proper directory are proper. -/
theorem Directory.isProper_of_find? {directory : Directory} (proper : directory.isProper = true)
    {names : List String} {node : Node} (found : directory.find? names = some node) :
    node.isProper = true := by
  induction names generalizing directory with
  | nil =>
    rw [find?, Option.some.injEq] at found
    exact found ▸ proper
  | cons name rest ih =>
    by_cases more : rest = []
    · subst more
      rw [find?_singleton] at found
      exact isProper_of_lookup proper found
    · obtain ⟨entries, name_found, rest_found⟩ := (find?_cons more).mp found
      exact ih (isProper_of_lookup_folder proper name_found) rest_found

namespace FileSystem

variable {system : FileSystem} {path : String}

/-! ## What a path denotes -/

theorem get_eq_ok_iff {node : Node} :
    system.get path = .ok node ↔
      ∃ names, system.resolve path = .ok names ∧ system.node? names = some node := by
  rw [get, except_bind_eq_ok]
  refine exists_congr fun names => and_congr_right fun _ => ?_
  cases system.node? names <;> simp

theorem entries?_eq_some_iff {directory : Directory} :
    system.entries? path = some directory ↔ system.get path = .ok (.folder directory) := by
  rw [entries?]
  split
  · rename_i entries found
    simp [found]
  · rename_i other
    simpa using other directory

/-- What is followed is short enough and has no NUL character. -/
theorem checkPath_of_resolve {names : List String} (resolved : system.resolve path = .ok names) :
    checkPath path = .ok () := by
  obtain ⟨done, checked, -⟩ := except_bind_eq_ok.mp resolved
  exact checked

theorem hasNul_of_resolve {names : List String} (resolved : system.resolve path = .ok names) :
    hasNul path = false := by
  have checked := checkPath_of_resolve resolved
  cases nul : hasNul path with
  | false => rfl
  | true => simp [checkPath, nul] at checked

theorem hasNul_of_entries? {directory : Directory}
    (isFolder : system.entries? path = some directory) : hasNul path = false := by
  obtain ⟨names, resolved, -⟩ := get_eq_ok_iff.mp (entries?_eq_some_iff.mp isFolder)
  exact hasNul_of_resolve resolved

/-- The directories of a file system are proper. -/
theorem isProper_of_entries? {directory : Directory}
    (isFolder : system.entries? path = some directory) : directory.isProper = true := by
  obtain ⟨names, -, found⟩ := get_eq_ok_iff.mp (entries?_eq_some_iff.mp isFolder)
  have node_proper := Directory.isProper_of_find? system.proper found
  exact node_proper

/-! ## Slashes at the end -/

/-- Empty components lead nowhere else, as long as they are followed in a directory. -/
theorem foldlM_follow_replicate {names : List String} {directory : Directory}
    (isFolder : system.node? names = some (.folder directory)) (count : Nat) :
    (List.replicate count "").foldlM system.follow names = .ok names := by
  induction count with
  | zero => rfl
  | succ count ih =>
    have stays : system.follow names "" = .ok names := by
      simp [follow, isFolder]
    rw [List.replicate_succ, List.foldlM_cons, stays]
    exact ih

/-- What stands behind the beginning of a path does not matter for where it starts. -/
theorem startOf_append (nonempty : path ≠ "") (rest : String) :
    system.startOf (path ++ rest) = system.startOf path := by
  rw [startOf, startOf, Path.isAbsolute_append nonempty]

/-- The empty path leads nowhere. -/
theorem ne_empty_of_resolve {names : List String} (resolved : system.resolve path = .ok names) :
    path ≠ "" := by
  rintro rfl
  simp [resolve, bind, Except.bind, checkPath, hasNul, maxPathSize] at resolved

/-- A path that is checked and not empty is resolved by following its components. -/
theorem resolve_of_checkPath (checked : checkPath path = .ok ()) (nonempty : path ≠ "") :
    system.resolve path =
      (Path.components path).foldlM system.follow (system.startOf path) := by
  rw [resolve, checked]
  simp [bind, Except.bind, nonempty]

/-- Slashes behind the name of a directory lead nowhere else, as long as the path does not get too
long. -/
theorem resolve_append_slashes {name : String} (valid : isValidName name = true) {count : Nat}
    (short : name.utf8ByteSize + count ≤ maxPathSize) {names : List String}
    {directory : Directory} (resolved : system.resolve name = .ok names)
    (isFolder : system.node? names = some (.folder directory)) :
    system.resolve (name ++ Path.slashes count) = .ok names := by
  have slashless := not_mem_of_isValidName valid
  have nonempty := ne_empty_of_resolve resolved
  have nulless : '\x00' ∉ name.toList := by simpa [hasNul] using hasNul_of_resolve resolved
  rw [resolve_of_checkPath (checkPath_of_resolve resolved) nonempty,
    Path.components_of_not_mem slashless] at resolved
  have checked : checkPath (name ++ Path.slashes count) = .ok () := by
    have no_nul : hasNul (name ++ Path.slashes count) = false := by
      have slashes_nulless : '\x00' ∉ (Path.slashes count).toList :=
        fun mem => absurd (Path.eq_of_mem_slashes mem) (by decide)
      simp [hasNul, nulless, slashes_nulless]
    rw [checkPath, no_nul, String.utf8ByteSize_append, Path.utf8ByteSize_slashes]
    rw [if_neg (by simp), if_neg (Nat.not_lt.mpr short)]
  -- the empty components behind the name are followed in the directory itself
  rw [resolve_of_checkPath checked (by simp [nonempty]), startOf_append nonempty,
    Path.components_append_slashes slashless, ← List.singleton_append, List.foldlM_append,
    resolved]
  exact foldlM_follow_replicate isFolder count

/-- Slashes behind the name of a directory in the working directory change nothing, as long as
the path does not get too long. -/
theorem entries?_append_slashes {name : String} (valid : isValidName name = true) {count : Nat}
    (short : name.utf8ByteSize + count ≤ maxPathSize) {directory : Directory}
    (isFolder : system.entries? name = some directory) :
    system.entries? (name ++ Path.slashes count) = some directory := by
  rw [entries?_eq_some_iff, get_eq_ok_iff] at isFolder ⊢
  obtain ⟨names, resolved, found⟩ := isFolder
  exact ⟨names, resolve_append_slashes valid short resolved found, found⟩

end FileSystem

end TraceInquest
