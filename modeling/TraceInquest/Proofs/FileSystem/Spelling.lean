import TraceInquest.Proofs.FileSystem.Below

/-! # Spellings of a directory

A directory has many paths: with more slashes, with dots, and with detours upwards. What is joined
with one of them denotes what it denotes behind the others, as long as no path gets too long.

* **`resolve_child`** — the location of an entry, whose path is tidied up, is followed from the
  directory.
* **`SameFolder`** — whether two paths denote the same directory.
* **`readBytes_join_iff`**, **`readBytes_child`** — what is read behind one of them is read behind
  the other. -/

namespace TraceInquest

namespace FileSystem

variable {system : FileSystem} {root name : String} {here : List String}

/-! ## Locations of entries -/

/-- Components that name nothing can be left out. -/
theorem foldlM_follow_naming {parts there : List String}
    (followed : parts.foldlM system.follow here = .ok there) :
    (parts.filter fun part => part != "" && part != ".").foldlM system.follow here =
      .ok there := by
  induction parts generalizing here with
  | nil => exact followed
  | cons part parts ih =>
    rw [List.foldlM_cons] at followed
    obtain ⟨next, stepped, rest⟩ := except_bind_eq_ok.mp followed
    rw [List.filter_cons]
    split
    · rw [List.foldlM_cons, stepped]
      exact ih rest
    · rename_i dropped
      have is_dot : part = "" ∨ part = "." := by
        by_cases empty : part = ""
        · exact .inl empty
        · exact .inr (by simpa [empty] using dropped)
      obtain ⟨entries, -, ⟨-, rfl⟩ | ⟨rfl, -⟩ | ⟨not_dot, -, -⟩⟩ := exists_of_follow stepped
      · exact ih rest
      · exact absurd is_dot (by decide)
      · exact absurd is_dot not_dot

theorem startAt_rootOf (system : FileSystem) (path : String) :
    system.startAt (Location.rootOf path) = system.startOf path := by
  rw [startAt, startOf, Path.isAbsolute, Location.rootOf]
  cases path.toList with
  | nil => rfl
  | cons c chars =>
    by_cases slash : c = '/'
    · subst slash
      split <;> simp_all
    · split <;> simp_all

/-- The location of an entry of a directory has no NUL character, like the path of the
directory. -/
theorem hasNul_child (resolved : system.resolve root = .ok here)
    (valid : isValidName name = true) :
    hasNul ((Location.ofPath root).child name).text = false := by
  have root_nulless : '\x00' ∉ root.toList := by simpa [hasNul] using hasNul_of_resolve resolved
  rw [hasNul, List.contains_eq_mem, decide_eq_false_iff_not,
    Location.text_of_ne_nil (by simp [Location.child]), String.toList_append, List.mem_append]
  rintro (at_root | in_parts)
  · rcases (Location.isPlain_ofPath root).root_mem with root_eq | root_eq | root_eq <;>
      rw [Location.child, root_eq] at at_root <;> exact absurd at_root (by decide)
  · rcases Path.eq_or_mem_of_mem_ofComponents in_parts with slash | ⟨part, part_mem, of_part⟩
    · exact absurd slash (by decide)
    · rcases List.mem_append.mp part_mem with above | last
      · exact root_nulless (Path.mem_of_mem_components (List.mem_of_mem_filter above) of_part)
      · rw [List.mem_singleton.mp last] at of_part
        exact nul_not_mem_of_isValidName valid of_part

/-- The location of an entry is followed from the directory to which the path in front of it
leads, if it is not too long. -/
theorem resolve_child (resolved : system.resolve root = .ok here)
    (valid : isValidName name = true) :
    system.resolve ((Location.ofPath root).child name).text =
      if ((Location.ofPath root).child name).text.utf8ByteSize ≤ maxPathSize then
        system.follow here name
      else .error .nameTooLong := by
  have plain := (Location.isPlain_ofPath root).child valid
  have nulless := hasNul_child resolved valid
  split
  · rename_i short
    have checked : checkPath ((Location.ofPath root).child name).text = .ok () := by
      rw [checkPath, nulless, if_neg (by simp), if_neg (Nat.not_lt.mpr short)]
    rw [resolve_of_checkPath (checkPath_of_resolve resolved) (ne_empty_of_resolve resolved)]
      at resolved
    -- the components that name the root lead to the directory
    have above := foldlM_follow_naming resolved
    rw [resolve_text plain (by simp [Location.child]) checked, Location.child,
      List.foldlM_append]
    change ((Path.namingComponents root).foldlM system.follow
      (system.startAt (Location.rootOf root)) >>= _) = _
    rw [startAt_rootOf, Path.namingComponents, above, except_ok_bind, List.foldlM_cons]
    exact bind_pure _
  · rename_i long
    rw [resolve, checkPath, nulless, if_neg (by simp), if_pos (Nat.not_le.mp long)]
    rfl

end FileSystem

/-! ## Two paths of one directory -/

/-- Whether two paths denote the same directory, to which some names lead. -/
structure SameFolder (system : FileSystem) (first second : String) (here : List String)
    (directory : Directory) : Prop where
  first_resolved : system.resolve first = .ok here
  second_resolved : system.resolve second = .ok here
  isFolder : system.node? here = some (.folder directory)

/-- Whether a path that denotes a file behind one of two others is not too long behind the other
one. -/
def ReachesAlike (system : FileSystem) (first second path : String) : Prop :=
  (system.isFile (Path.join first path) = true →
      (Path.join second path).utf8ByteSize ≤ maxPathSize) ∧
    (system.isFile (Path.join second path) = true →
      (Path.join first path).utf8ByteSize ≤ maxPathSize)

namespace SameFolder

open FileSystem

variable {system : FileSystem} {first second path : String} {here : List String}
  {directory : Directory}

theorem symm (same : SameFolder system first second here directory) :
    SameFolder system second first here directory where
  first_resolved := same.second_resolved
  second_resolved := same.first_resolved
  isFolder := same.isFolder

theorem entries? (same : SameFolder system first second here directory) :
    system.entries? first = some directory :=
  entries?_eq_some_iff.mpr (get_eq_ok_iff.mpr ⟨here, same.first_resolved, same.isFolder⟩)

theorem ne_empty (same : SameFolder system first second here directory) : first ≠ "" :=
  ne_empty_of_resolve same.first_resolved

/-- What a path leads to behind one of the two, it leads to behind the other, if it is not too long
there. -/
theorem resolve_join (same : SameFolder system first second here directory)
    (relative : Path.isAbsolute path = false) {names : List String}
    (resolved : system.resolve (Path.join first path) = .ok names)
    (short : (Path.join second path).utf8ByteSize ≤ maxPathSize) :
    system.resolve (Path.join second path) = .ok names := by
  have first_checked := checkPath_of_resolve resolved
  have second_checked : checkPath (Path.join second path) = .ok () := by
    refine checkPath_eq_ok_iff.mpr ⟨fun nul => ?_, short⟩
    have second_nulless := (checkPath_eq_ok_iff.mp (checkPath_of_resolve same.second_resolved)).1
    rcases Path.eq_or_mem_of_mem_join nul with slash | of_second | of_path
    · exact absurd slash (by decide)
    · exact second_nulless of_second
    · refine (checkPath_eq_ok_iff.mp first_checked).1 ?_
      rw [Path.join_of_relative relative, String.toList_append]
      exact List.mem_append_right _ of_path
  rw [resolve_join_of_relative relative first_checked (ne_empty_of_resolve resolved), folderPath,
    if_neg (by simpa using same.ne_empty), same.first_resolved] at resolved
  rw [resolve_join_of_relative relative second_checked
    (Path.join_ne_empty relative same.symm.ne_empty), folderPath,
    if_neg (by simpa using same.symm.ne_empty), same.second_resolved]
  exact resolved

theorem readBytes_join (same : SameFolder system first second here directory)
    (alike : ReachesAlike system first second path) {bytes : List UInt8}
    (read : system.readBytes (Path.join first path) = .ok bytes) :
    system.readBytes (Path.join second path) = .ok bytes := by
  cases absolute : Path.isAbsolute path with
  | true => rwa [Path.join_of_isAbsolute absolute] at read ⊢
  | false =>
    have got := readBytes_eq_ok_iff.mp read
    have isFile : system.isFile (Path.join first path) = true := by
      rw [FileSystem.isFile, got]
    obtain ⟨names, resolved, found⟩ := get_eq_ok_iff.mp got
    have other_resolved := same.resolve_join absolute resolved (alike.1 isFile)
    exact readBytes_eq_ok_iff.mpr (get_eq_ok_iff.mpr ⟨names, other_resolved, found⟩)

/-- What is read behind one of the two is read behind the other. -/
theorem readBytes_join_iff (same : SameFolder system first second here directory)
    (alike : ReachesAlike system first second path) {bytes : List UInt8} :
    system.readBytes (Path.join first path) = .ok bytes ↔
      system.readBytes (Path.join second path) = .ok bytes :=
  ⟨same.readBytes_join alike, same.symm.readBytes_join ⟨alike.2, alike.1⟩⟩

/-- What is read at the location of an entry is the same for both. -/
theorem readBytes_child (same : SameFolder system first second here directory) {name : String}
    (valid : isValidName name = true)
    (alike : ((Location.ofPath first).child name).text.utf8ByteSize ≤ maxPathSize ↔
      ((Location.ofPath second).child name).text.utf8ByteSize ≤ maxPathSize) :
    system.readBytes ((Location.ofPath first).child name).text =
      system.readBytes ((Location.ofPath second).child name).text := by
  have resolved : system.resolve ((Location.ofPath first).child name).text =
      system.resolve ((Location.ofPath second).child name).text := by
    rw [resolve_child same.first_resolved valid, resolve_child same.second_resolved valid]
    simp only [alike]
  simp only [readBytes, FileSystem.get, resolved]

end SameFolder

end TraceInquest
