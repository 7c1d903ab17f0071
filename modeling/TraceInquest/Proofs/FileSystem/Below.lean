import TraceInquest.Proofs.FileSystem.Edit
import TraceInquest.Proofs.FileSystem.Location

/-! # Files below the directory at a path

Names behind the path of a directory lead to what they lead to in the directory. What stands there
can be read if the whole path is short enough to be followed.

* **`node?_append`** — names behind those of a directory.
* **`resolve_join_ofComponents`** — where the path of some names behind another path leads.
* **`readBytes_join_ofComponents`** — what is read from it. -/

namespace TraceInquest

/-- Names behind those of a directory lead to what they lead to in the directory. -/
theorem Directory.find?_append {directory entries : Directory} {names : List String}
    (isFolder : directory.find? names = some (.folder entries)) (rest : List String) :
    directory.find? (names ++ rest) = entries.find? rest := by
  induction names generalizing directory with
  | nil =>
    obtain rfl : directory = entries := by simpa [find?] using isFolder
    rfl
  | cons first names ih =>
    obtain ⟨inner, first_found, names_found⟩ := exists_lookup_of_find? isFolder
    rw [List.cons_append, find?, first_found]
    exact ih names_found

namespace FileSystem

variable {system : FileSystem} {base : String} {here names : List String} {entries : Directory}

theorem node?_append (isFolder : system.node? here = some (.folder entries))
    (names : List String) : system.node? (here ++ names) = entries.find? names :=
  Directory.find?_append isFolder names

/-- Names that lead to something in a directory can be followed there. -/
theorem foldlM_follow_of_find? (isFolder : system.node? here = some (.folder entries)) {node : Node}
    (found : entries.find? names = some node) :
    names.foldlM system.follow here = .ok (here ++ names) := by
  induction names generalizing here entries with
  | nil =>
    rw [List.append_nil]
    rfl
  | cons name rest ih =>
    rw [List.foldlM_cons]
    by_cases last : rest = []
    · subst last
      rw [Directory.find?_singleton] at found
      rw [follow_of_lookup isFolder found]
      rfl
    · obtain ⟨inner, name_found, rest_found⟩ := (Directory.find?_cons last).mp found
      have inner_found : system.node? (here ++ [name]) = some (.folder inner) := by
        rw [node?_append_singleton isFolder, name_found]
      rw [follow_of_lookup isFolder name_found, except_ok_bind, ih inner_found rest_found,
        List.append_assoc]
      rfl

/-- Names of entries make a location. -/
theorem isPlain_of_isValidName (valid : ∀ name ∈ names, isValidName name = true) :
    (Location.mk "" names).IsPlain where
  root_mem := .inl rfl
  parts_plain := by
    intro name mem
    have name_valid := valid name mem
    have slashless := not_mem_of_isValidName name_valid
    simp only [isValidName, Bool.and_eq_true, bne_iff_ne] at name_valid
    exact ⟨name_valid.1.1.1.1, name_valid.1.1.1.2, slashless⟩

/-- No name of an entry holds a NUL character. -/
theorem nul_not_mem_of_isValidName {name : String} (valid : isValidName name = true) :
    '\x00' ∉ name.toList := by
  simp only [isValidName, Bool.and_eq_true, List.all_eq_true] at valid
  intro mem
  have kept := valid.1.2 '\x00' mem
  simp at kept

/-- Names of entries behind a path that is followed add no NUL character. -/
theorem hasNul_join_ofComponents (resolved : system.resolve base = .ok here)
    (valid : ∀ name ∈ names, isValidName name = true) :
    hasNul (Path.join base (Path.ofComponents names)) = false := by
  have base_nulless : '\x00' ∉ base.toList := by simpa [hasNul] using hasNul_of_resolve resolved
  rw [hasNul, List.contains_eq_mem, decide_eq_false_iff_not]
  intro mem
  rcases Path.eq_or_mem_of_mem_join mem with slash | of_base | of_names
  · exact absurd slash (by decide)
  · exact base_nulless of_base
  · rcases Path.eq_or_mem_of_mem_ofComponents of_names with slash | ⟨name, name_mem, of_name⟩
    · exact absurd slash (by decide)
    · exact nul_not_mem_of_isValidName (valid name name_mem) of_name

/-- The path of names behind another path is followed from the directory to which the other path
leads, if it is not too long. -/
theorem resolve_join_ofComponents (resolved : system.resolve base = .ok here)
    (isFolder : system.node? here = some (.folder entries)) {node : Node}
    (found : entries.find? names = some node) (nonempty : names ≠ []) :
    system.resolve (Path.join base (Path.ofComponents names)) =
      if (Path.join base (Path.ofComponents names)).utf8ByteSize ≤ maxPathSize then
        .ok (here ++ names)
      else .error .nameTooLong := by
  have entries_proper : entries.isProper = true :=
    Directory.isProper_of_find? system.proper isFolder
  have valid := Directory.isValidName_of_find? entries_proper found
  have plain := isPlain_of_isValidName valid
  obtain ⟨not_empty, relative⟩ := plain.relative nonempty
  have nulless := hasNul_join_ofComponents resolved valid
  have base_nonempty := ne_empty_of_resolve resolved
  split
  · rename_i short
    have checked : checkPath (Path.join base (Path.ofComponents names)) = .ok () := by
      rw [checkPath, nulless, if_neg (by simp), if_neg (Nat.not_lt.mpr short)]
    -- the names are followed one by one from the directory
    rw [resolve_join_of_relative relative checked (Path.join_ne_empty relative base_nonempty),
      folderPath, if_neg (by simpa using base_nonempty), resolved,
      plain.components_ofComponents nonempty]
    exact foldlM_follow_of_find? isFolder found
  · rename_i long
    rw [resolve, checkPath, nulless, if_neg (by simp), if_pos (Nat.not_le.mp long)]
    rfl

/-- A file below the directory at a path can be read if its own path is not too long. -/
theorem readBytes_join_ofComponents (resolved : system.resolve base = .ok here)
    (isFolder : system.node? here = some (.folder entries)) {bytes : List UInt8}
    (isFile : entries.find? names = some (.file bytes)) :
    system.readBytes (Path.join base (Path.ofComponents names)) =
      if (Path.join base (Path.ofComponents names)).utf8ByteSize ≤ maxPathSize then .ok bytes
      else .error .nameTooLong := by
  have nonempty : names ≠ [] := by
    rintro rfl
    cases isFile
  have file_found : system.node? (here ++ names) = some (.file bytes) :=
    (node?_append isFolder names).trans isFile
  have path_resolved := resolve_join_ofComponents resolved isFolder isFile nonempty
  split
  · rename_i short
    rw [if_pos short] at path_resolved
    exact readBytes_eq_ok_iff.mpr (get_eq_ok_iff.mpr ⟨_, path_resolved, file_found⟩)
  · rename_i long
    rw [if_neg long] at path_resolved
    rw [readBytes, get, path_resolved]
    rfl

end FileSystem

end TraceInquest
