import TraceInquest.Proofs.FileSystem.Reading

/-! # Files behind the path of a directory

A path that is joined with a name without slashes denotes a file exactly if the path leads to a
directory that has a file of that name. So no such name leads out of the directory.

* **`FileSystem.folderAt?`** — the directory in which names behind a path are looked up.
* **`FileSystem.fileIn?`** — the bytes of the file of a name in that directory.
* **`readBytes_join_eq_ok_iff`** — what joining a path with a name denotes. -/

namespace TraceInquest

/-! ## One name more -/

/-- One name more leads to an entry of the directory to which the others lead. -/
theorem Directory.find?_append_singleton {directory : Directory} {names : List String}
    {name : String} {node : Node} :
    directory.find? (names ++ [name]) = some node ↔
      ∃ entries, directory.find? names = some (.folder entries) ∧
        entries.lookup name = some node := by
  induction names generalizing directory with
  | nil => simp [find?_singleton, find?]
  | cons first rest ih =>
    rw [List.cons_append, find?_cons (by simp)]
    by_cases more : rest = []
    · subst more
      simp [find?_singleton]
    · simp only [find?_cons more, ih]
      constructor
      · rintro ⟨inner, first_found, entries, rest_found, found⟩
        exact ⟨entries, ⟨inner, first_found, rest_found⟩, found⟩
      · rintro ⟨entries, ⟨inner, first_found, rest_found⟩, found⟩
        exact ⟨inner, first_found, entries, rest_found, found⟩

/-- In front of more names there is a directory. -/
theorem Directory.exists_find?_of_append {directory : Directory} {names rest : List String}
    (more : rest ≠ []) {node : Node} (found : directory.find? (names ++ rest) = some node) :
    ∃ entries, directory.find? names = some (.folder entries) := by
  induction names generalizing directory with
  | nil => exact ⟨directory, rfl⟩
  | cons first names ih =>
    obtain ⟨inner, first_found, rest_found⟩ :=
      (find?_cons (List.append_ne_nil_of_right_ne_nil names more)).mp found
    obtain ⟨entries, names_found⟩ := ih rest_found
    refine ⟨entries, ?_⟩
    rw [find?, first_found]
    exact names_found

/-- In front of the last name there is a directory. -/
theorem Directory.exists_find?_dropLast {directory entries : Directory} {names : List String}
    (found : directory.find? names = some (.folder entries)) :
    ∃ above, directory.find? names.dropLast = some (.folder above) := by
  rcases List.eq_nil_or_concat names with rfl | ⟨others, last, rfl⟩
  · exact ⟨entries, found⟩
  · rw [List.concat_eq_append] at found ⊢
    rw [List.dropLast_concat]
    exact exists_find?_of_append (List.cons_ne_nil last []) found

namespace FileSystem

variable {system : FileSystem} {base name : String} {names : List String}

/-- Behind a directory a name leads to the entry of that name. -/
theorem node?_append_singleton {entries : Directory}
    (isFolder : system.node? names = some (.folder entries)) (name : String) :
    system.node? (names ++ [name]) = entries.lookup name := by
  rw [node?] at isFolder
  ext node
  rw [node?, Directory.find?_append_singleton]
  simp [isFolder]

/-- Where a component leads that can be followed: nowhere else, upwards, or to an entry. -/
theorem exists_of_follow {component : String} {there : List String}
    (followed : system.follow names component = .ok there) :
    ∃ entries, system.node? names = some (.folder entries) ∧
      ((component = "" ∨ component = ".") ∧ there = names ∨
        component = ".." ∧ there = names.dropLast ∨
        ¬(component = "" ∨ component = ".") ∧ component ≠ ".." ∧ there = names ++ [component]) := by
  rw [follow] at followed
  split at followed
  · cases followed
  · cases followed
  · rename_i entries isFolder
    refine ⟨entries, isFolder, ?_⟩
    -- a component is looked at as a dot, as two dots, and as a name, in this order
    by_cases is_dot : component = "" ∨ component = "."
    · rw [if_pos is_dot] at followed
      exact .inl ⟨is_dot, (Except.ok.inj followed).symm⟩
    · rw [if_neg is_dot] at followed
      by_cases is_dots : component = ".."
      · rw [if_pos is_dots] at followed
        exact .inr (.inl ⟨is_dots, (Except.ok.inj followed).symm⟩)
      · rw [if_neg is_dots] at followed
        refine .inr (.inr ⟨is_dot, is_dots, ?_⟩)
        split at followed
        · cases followed
        · split at followed
          · exact (Except.ok.inj followed).symm
          · cases followed

/-- A component that leads to a file is the name of an entry of a directory. -/
theorem follow_eq_ok_of_file {component : String} {there : List String} {bytes : List UInt8}
    (followed : system.follow names component = .ok there)
    (isFile : system.node? there = some (.file bytes)) :
    ∃ entries, system.node? names = some (.folder entries) ∧
      entries.lookup component = some (.file bytes) := by
  obtain ⟨entries, isFolder, ⟨-, rfl⟩ | ⟨-, rfl⟩ | ⟨-, -, rfl⟩⟩ := exists_of_follow followed
  -- dots and the empty component lead to directories
  · rw [isFolder] at isFile
    cases isFile
  · obtain ⟨above, above_found⟩ := Directory.exists_find?_dropLast isFolder
    rw [node?, above_found] at isFile
    cases isFile
  · rw [node?_append_singleton isFolder] at isFile
    exact ⟨entries, isFolder, isFile⟩

/-- The name of an entry leads to the entry. -/
theorem follow_of_lookup {entries : Directory} {node : Node}
    (isFolder : system.node? names = some (.folder entries))
    (found : entries.lookup name = some node) : system.follow names name = .ok (names ++ [name]) := by
  have entries_proper : entries.isProper = true := Directory.isProper_of_find? system.proper isFolder
  have valid := Directory.isValidName_of_lookup entries_proper found
  simp only [isValidName, Bool.and_eq_true, bne_iff_ne, decide_eq_true_eq] at valid
  obtain ⟨⟨⟨⟨not_empty, not_dot⟩, not_dots⟩, -⟩, short⟩ := valid
  rw [follow, isFolder]
  simp [not_empty, not_dot, not_dots, Nat.not_lt.mpr short, found]

/-- An empty component and a dot only need a directory to be followed in. -/
theorem follow_bind_follow {dot component : String} (is_dot : dot = "" ∨ dot = ".") :
    (system.follow names dot >>= fun there => system.follow there component) =
      system.follow names component := by
  cases isFolder : system.node? names with
  | none => simp [follow, isFolder, bind, Except.bind]
  | some node =>
    cases node with
    | file bytes => simp [follow, isFolder, bind, Except.bind]
    | folder entries =>
      have stays : system.follow names dot = .ok names := by
        simp [follow, isFolder, is_dot]
      rw [stays]
      rfl

/-- In front of other components an empty one and a dot do not matter. -/
theorem follow_bind_foldlM {dot : String} (is_dot : dot = "" ∨ dot = ".") {parts : List String}
    (nonempty : parts ≠ []) :
    (system.follow names dot >>= fun there => parts.foldlM system.follow there) =
      parts.foldlM system.follow names := by
  obtain ⟨part, rest, rfl⟩ := List.exists_cons_of_ne_nil nonempty
  simp only [List.foldlM_cons]
  rw [← bind_assoc, follow_bind_follow is_dot]

/-! ## Joining a path with a name -/

/-- The path behind which names are looked up; behind the empty path that is the working
directory. -/
def folderPath (path : String) : String := if path.isEmpty then "." else path

/-- The directory in which names behind a path are looked up. -/
def folderAt? (system : FileSystem) (path : String) : Option Directory :=
  system.entries? (folderPath path)

/-- The bytes of the file of a name in the directory at a path. -/
def fileIn? (system : FileSystem) (path name : String) : Option (List UInt8) :=
  match (system.folderAt? path).bind (Directory.lookup name) with
  | some (.file bytes) => some bytes
  | _ => none

theorem fileIn?_eq_some_iff {bytes : List UInt8} :
    system.fileIn? base name = some bytes ↔
      ∃ entries, system.folderAt? base = some entries ∧
        entries.lookup name = some (.file bytes) := by
  rw [fileIn?]
  cases system.folderAt? base with
  | none => simp
  | some entries =>
    rw [Option.bind_some]
    cases found : entries.lookup name with
    | none => simp [found]
    | some node => cases node <;> simp [found]

theorem checkPath_eq_ok_iff {path : String} :
    checkPath path = .ok () ↔ '\x00' ∉ path.toList ∧ path.utf8ByteSize ≤ maxPathSize := by
  rw [checkPath, hasNul]
  split
  · simp_all
  · split <;> simp_all

/-- Whatever is joined with a path, the path itself can be followed if the joined path can. -/
theorem checkPath_folderPath {path : String} (relative : Path.isAbsolute path = false)
    (checked : checkPath (Path.join base path) = .ok ()) : checkPath (folderPath base) = .ok () := by
  by_cases empty : base = ""
  · subst empty
    decide
  · have size := @Path.utf8ByteSize_le_join base path relative
    rw [folderPath, if_neg (by simpa using empty)]
    rw [checkPath_eq_ok_iff] at checked ⊢
    refine ⟨fun mem => checked.1 ?_, by omega⟩
    rcases Path.join_of_ne_empty relative empty with ⟨front, base_eq, join_eq⟩ | join_eq
    · rw [join_eq, ← base_eq, String.toList_append]
      exact List.mem_append_left _ mem
    · rw [join_eq, String.append_assoc, String.toList_append]
      exact List.mem_append_left _ mem

/-- The components of a relative path behind another path are followed in the directory to which
the other path leads. -/
theorem resolve_join_of_relative {path : String} (relative : Path.isAbsolute path = false)
    (checked : checkPath (Path.join base path) = .ok ()) (nonempty : Path.join base path ≠ "") :
    system.resolve (Path.join base path) =
      system.resolve (folderPath base) >>= fun there =>
        (Path.components path).foldlM system.follow there := by
  have base_checked := checkPath_folderPath relative checked
  have some_part := Path.components_ne_nil path
  rw [resolve_of_checkPath checked nonempty]
  by_cases empty : base = ""
  · -- the path is followed in the working directory, as a dot is
    subst empty
    have start_eq : system.startOf path = system.working := by
      rw [startOf, relative]
      rfl
    have dot_eq : system.resolve (folderPath "") =
        ["."].foldlM system.follow system.working :=
      resolve_of_checkPath base_checked (by decide)
    rw [Path.join_empty relative, start_eq, dot_eq, List.foldlM_cons]
    simp only [List.foldlM_nil, bind_pure]
    exact (follow_bind_foldlM (.inr rfl) some_part).symm
  · rw [folderPath, if_neg (by simpa using empty)] at base_checked ⊢
    rw [resolve_of_checkPath base_checked empty]
    rcases Path.join_of_ne_empty relative empty with ⟨front, rfl, join_eq⟩ | join_eq
    · -- a slash at the end of the path stands for an empty component in front of the others
      have base_components : Path.components (front ++ "/") = Path.components front ++ [""] := by
        rw [← String.append_empty (s := front ++ "/"), Path.components_append_slash_append]
        rfl
      rw [join_eq, startOf_append empty, Path.components_append_slash_append, base_components,
        List.foldlM_append, List.foldlM_append, bind_assoc]
      refine congrArg _ (funext fun there => ?_)
      rw [List.foldlM_cons]
      simp only [List.foldlM_nil, bind_pure]
      exact (follow_bind_foldlM (.inl rfl) some_part).symm
    · rw [join_eq, String.append_assoc, startOf_append empty, ← String.append_assoc,
        Path.components_append_slash_append, List.foldlM_append]

/-- A name behind a path is followed in the directory to which the path leads. -/
theorem resolve_join (slashless : '/' ∉ name.toList)
    (checked : checkPath (Path.join base name) = .ok ()) (nonempty : Path.join base name ≠ "") :
    system.resolve (Path.join base name) =
      system.resolve (folderPath base) >>= fun there => system.follow there name := by
  rw [resolve_join_of_relative (Path.isAbsolute_of_not_mem slashless) checked nonempty,
    Path.components_of_not_mem slashless]
  refine congrArg _ (funext fun there => ?_)
  rw [List.foldlM_cons]
  exact bind_pure _

/-- The names of files are valid. -/
theorem isValidName_of_fileIn? {bytes : List UInt8} (found : system.fileIn? base name = some bytes) :
    isValidName name = true := by
  obtain ⟨entries, isFolder, found⟩ := fileIn?_eq_some_iff.mp found
  exact Directory.isValidName_of_lookup (isProper_of_entries? isFolder) found

/-- Joining a path with a name denotes a file exactly if the directory at the path has a file of
that name and the joined path can be followed. -/
theorem get_join_eq_ok_file_iff (slashless : '/' ∉ name.toList) {bytes : List UInt8} :
    system.get (Path.join base name) = .ok (.file bytes) ↔
      checkPath (Path.join base name) = .ok () ∧ system.fileIn? base name = some bytes := by
  rw [get_eq_ok_iff]
  constructor
  · rintro ⟨names, resolved, isFile⟩
    have checked := checkPath_of_resolve resolved
    have nonempty := ne_empty_of_resolve resolved
    -- the name is followed last, in a directory that is the one of the path
    rw [resolve_join slashless checked nonempty] at resolved
    obtain ⟨there, base_resolved, followed⟩ := except_bind_eq_ok.mp resolved
    obtain ⟨entries, isFolder, found⟩ := follow_eq_ok_of_file followed isFile
    refine ⟨checked, fileIn?_eq_some_iff.mpr ⟨entries, ?_, found⟩⟩
    exact entries?_eq_some_iff.mpr (get_eq_ok_iff.mpr ⟨there, base_resolved, isFolder⟩)
  · rintro ⟨checked, found⟩
    have valid := isValidName_of_fileIn? found
    obtain ⟨entries, isFolder, found⟩ := fileIn?_eq_some_iff.mp found
    obtain ⟨there, base_resolved, isFolder⟩ := get_eq_ok_iff.mp (entries?_eq_some_iff.mp isFolder)
    have nonempty : Path.join base name ≠ "" := by
      intro empty
      have size := @Path.utf8ByteSize_le_join base name (Path.isAbsolute_of_not_mem slashless)
      rw [empty] at size
      have no_name : base = "" ∧ name = "" := by simpa using size
      rw [no_name.2] at valid
      exact absurd valid (by decide)
    refine ⟨there ++ [name], ?_, Directory.find?_append_singleton.mpr ⟨entries, isFolder, found⟩⟩
    rw [resolve_join slashless checked nonempty, base_resolved]
    exact follow_of_lookup isFolder found

theorem readBytes_eq_ok_iff {path : String} {bytes : List UInt8} :
    system.readBytes path = .ok bytes ↔ system.get path = .ok (.file bytes) := by
  rw [readBytes, except_bind_eq_ok]
  constructor
  · rintro ⟨node, got, read⟩
    cases node with
    | file bytes' => rw [got, Except.ok.inj read]
    | folder entries => simp at read
  · exact fun got => ⟨_, got, rfl⟩

/-- A text is read from bytes. -/
theorem readText_eq_ok_iff {path text : String} :
    system.readText path = .ok text ↔
      ∃ bytes, system.readBytes path = .ok bytes ∧ textOfBytes bytes = .ok text := by
  rw [readText]
  cases system.readBytes path with
  | error fault => simp
  | ok bytes =>
    simp only [Except.ok.injEq, exists_eq_left']
    cases textOfBytes bytes <;> simp [Except.mapError]

/-- The bytes that are read where a path is joined with a name are those of the file of that name
in the directory at the path. -/
theorem readBytes_join_eq_ok_iff (slashless : '/' ∉ name.toList) {bytes : List UInt8} :
    system.readBytes (Path.join base name) = .ok bytes ↔
      checkPath (Path.join base name) = .ok () ∧ system.fileIn? base name = some bytes := by
  rw [readBytes_eq_ok_iff, get_join_eq_ok_file_iff slashless]

end FileSystem

end TraceInquest
