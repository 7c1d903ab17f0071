import TraceInquest.Codebase.Scan

/-! # The entries of a directory

A proper directory has one entry for each of its names, so listing its entries and looking them up
by name say the same.

* **`Directory.folders`** — the directories among the entries, with their names.
* **`Directory.folder_induction`** — what holds of a directory if it holds of those in it, holds
  of every directory.
* **`mem_fileNames_iff`**, **`mem_folders_iff`** — listing against looking up.
* **`find?_cons`** — names lead on through the directory of the first name.
* **`allNames`** — the names of all entries in a directory and below it. -/

namespace TraceInquest.Directory

/-- The directories among the entries of a directory, with their names. -/
def folders : Directory → List (String × Directory)
  | empty => []
  | file _ _ others => others.folders
  | folder name entries others => (name, entries) :: others.folders

/-! ## Induction along the tree -/

theorem sizeOf_lt_of_mem_folders {directory entries : Directory} {name : String}
    (mem : (name, entries) ∈ directory.folders) : sizeOf entries < sizeOf directory := by
  induction directory with
  | empty => simp [folders] at mem
  | file other bytes others ih =>
    have smaller := ih mem
    rw [file.sizeOf_spec]
    omega
  | folder other inner others _ ih =>
    rw [folder.sizeOf_spec]
    rcases List.mem_cons.mp mem with same | later
    · obtain ⟨rfl, rfl⟩ := Prod.mk.inj same
      omega
    · have smaller := ih later
      omega

/-- What holds of a directory as soon as it holds of the directories in it, holds of all. -/
theorem folder_induction {motive : Directory → Prop}
    (step : ∀ directory,
      (∀ name entries, (name, entries) ∈ directory.folders → motive entries) → motive directory)
    (directory : Directory) : motive directory :=
  step directory fun _ entries mem =>
    have := sizeOf_lt_of_mem_folders mem
    folder_induction step entries
  termination_by sizeOf directory

/-! ## Names -/

theorem isProper_file_iff {name : String} {bytes : List UInt8} {others : Directory} :
    (file name bytes others).isProper = true ↔
      isValidName name = true ∧ name ∉ others.names ∧ others.isProper = true := by
  simp only [isProper, Bool.and_eq_true, Bool.not_eq_true', List.contains_eq_mem,
    decide_eq_false_iff_not, and_assoc]

theorem isProper_folder_iff {name : String} {entries others : Directory} :
    (folder name entries others).isProper = true ↔
      isValidName name = true ∧ name ∉ others.names ∧ entries.isProper = true ∧
        others.isProper = true := by
  simp only [isProper, Bool.and_eq_true, Bool.not_eq_true', List.contains_eq_mem,
    decide_eq_false_iff_not, and_assoc]

theorem fileNames_sublist_names (directory : Directory) :
    directory.fileNames.Sublist directory.names := by
  induction directory with
  | empty => exact List.Sublist.refl []
  | file name bytes others ih => exact ih.cons_cons name
  | folder name entries others _ ih => exact ih.cons name

theorem map_fst_folders_sublist_names (directory : Directory) :
    (directory.folders.map (·.1)).Sublist directory.names := by
  induction directory with
  | empty => exact List.Sublist.refl []
  | file name bytes others ih => exact ih.cons name
  | folder name entries others _ ih => exact ih.cons_cons name

/-- No two entries of a proper directory share a name. -/
theorem nodup_names {directory : Directory} (proper : directory.isProper = true) :
    directory.names.Nodup := by
  induction directory with
  | empty => exact List.nodup_nil
  | file name bytes others ih =>
    obtain ⟨-, fresh, others_proper⟩ := isProper_file_iff.mp proper
    exact List.nodup_cons.mpr ⟨fresh, ih others_proper⟩
  | folder name entries others _ ih =>
    obtain ⟨-, fresh, -, others_proper⟩ := isProper_folder_iff.mp proper
    exact List.nodup_cons.mpr ⟨fresh, ih others_proper⟩

theorem nodup_fileNames {directory : Directory} (proper : directory.isProper = true) :
    directory.fileNames.Nodup :=
  (nodup_names proper).sublist directory.fileNames_sublist_names

theorem nodup_map_fst_folders {directory : Directory} (proper : directory.isProper = true) :
    (directory.folders.map (·.1)).Nodup :=
  (nodup_names proper).sublist directory.map_fst_folders_sublist_names

/-! ## Listing and looking up -/

/-- An entry that is looked up has a valid name. -/
theorem isValidName_of_lookup {directory : Directory} {name : String} {node : Node}
    (proper : directory.isProper = true) (found : directory.lookup name = some node) :
    isValidName name = true := by
  induction directory with
  | empty => simp [lookup] at found
  | file other bytes others ih =>
    obtain ⟨valid, -, others_proper⟩ := isProper_file_iff.mp proper
    by_cases same : other = name
    · exact same ▸ valid
    · exact ih others_proper (by simpa [lookup, same] using found)
  | folder other entries others _ ih =>
    obtain ⟨valid, -, -, others_proper⟩ := isProper_folder_iff.mp proper
    by_cases same : other = name
    · exact same ▸ valid
    · exact ih others_proper (by simpa [lookup, same] using found)

/-- The listed files of a proper directory are those that are found by their names. -/
theorem mem_fileNames_iff {directory : Directory} (proper : directory.isProper = true)
    {name : String} :
    name ∈ directory.fileNames ↔ ∃ bytes, directory.lookup name = some (.file bytes) := by
  induction directory with
  | empty => simp [fileNames, lookup]
  | file other bytes others ih =>
    obtain ⟨-, -, others_proper⟩ := isProper_file_iff.mp proper
    by_cases same : other = name
    · simp [fileNames, lookup, same]
    · simp [fileNames, lookup, same, Ne.symm same, ih others_proper]
  | folder other entries others _ ih =>
    obtain ⟨-, fresh, -, others_proper⟩ := isProper_folder_iff.mp proper
    by_cases same : other = name
    · -- the name is that of a directory, so no file behind it has the name too
      subst same
      have absent : other ∉ others.fileNames :=
        fun mem => fresh (others.fileNames_sublist_names.mem mem)
      simp [fileNames, lookup, absent]
    · simp [fileNames, lookup, same, ih others_proper]

theorem not_mem_folders {directory : Directory} {name : String} (absent : name ∉ directory.names)
    (entries : Directory) : (name, entries) ∉ directory.folders := by
  intro mem
  exact absent (directory.map_fst_folders_sublist_names.mem (List.mem_map_of_mem mem))

/-- The listed directories of a proper directory are those that are found by their names. -/
theorem mem_folders_iff {directory : Directory} (proper : directory.isProper = true)
    {name : String} {entries : Directory} :
    (name, entries) ∈ directory.folders ↔ directory.lookup name = some (.folder entries) := by
  induction directory with
  | empty => simp [folders, lookup]
  | file other bytes others ih =>
    obtain ⟨-, fresh, others_proper⟩ := isProper_file_iff.mp proper
    by_cases same : other = name
    · subst same
      simp [folders, lookup, not_mem_folders fresh]
    · simp [folders, lookup, same, ih others_proper]
  | folder other inner others _ ih =>
    obtain ⟨-, fresh, -, others_proper⟩ := isProper_folder_iff.mp proper
    by_cases same : other = name
    · subst same
      simp [folders, lookup, not_mem_folders fresh, eq_comm]
    · simp [folders, lookup, same, Ne.symm same, ih others_proper]

/-- A directory that is looked up in a proper directory is proper. -/
theorem isProper_of_lookup_folder {directory entries : Directory} {name : String}
    (proper : directory.isProper = true) (found : directory.lookup name = some (.folder entries)) :
    entries.isProper = true := by
  have node_proper := isProper_of_lookup proper found
  exact node_proper

theorem isProper_of_mem_folders {directory : Directory} (proper : directory.isProper = true)
    {name : String} {entries : Directory} (mem : (name, entries) ∈ directory.folders) :
    entries.isProper = true :=
  isProper_of_lookup_folder proper ((mem_folders_iff proper).mp mem)

/-! ## Names that lead to an entry -/

/-- One name leads to the entry of that name. -/
theorem find?_singleton (directory : Directory) (name : String) :
    directory.find? [name] = directory.lookup name := by
  rw [find?]
  split
  · rename_i entries found
    rw [found, find?]
  · rename_i bytes found
    rw [found]
    rfl
  · rename_i missing
    rw [missing]

/-- Several names lead on through the directory of the first name. -/
theorem find?_cons {directory : Directory} {name : String} {rest : List String}
    (more : rest ≠ []) {node : Node} :
    directory.find? (name :: rest) = some node ↔
      ∃ entries, directory.lookup name = some (.folder entries) ∧
        entries.find? rest = some node := by
  rw [find?]
  split
  · rename_i entries found
    simp [found]
  · rename_i bytes found
    simp [found, more]
  · rename_i missing
    simp [missing]

/-- In a directory of one file only the name of the file leads to a file. -/
theorem find?_file_empty {name : String} {bytes found : List UInt8} {names : List String}
    (isFile : (file name bytes empty).find? names = some (.file found)) : names = [name] := by
  cases names with
  | nil => cases isFile
  | cons first rest =>
    rw [find?, lookup] at isFile
    by_cases same : name = first
    · rw [if_pos same] at isFile
      cases rest with
      | nil => rw [same]
      | cons next rest => cases isFile
    · rw [if_neg same] at isFile
      cases isFile

/-- In a directory of one directory the names of files start with the name of that directory. -/
theorem find?_folder_empty {name : String} {entries : Directory} {found : List UInt8}
    {names : List String}
    (isFile : (folder name entries empty).find? names = some (.file found)) :
    ∃ rest, names = name :: rest ∧ entries.find? rest = some (.file found) := by
  cases names with
  | nil => cases isFile
  | cons first rest =>
    rw [find?, lookup] at isFile
    by_cases same : name = first
    · rw [if_pos same] at isFile
      exact ⟨rest, by rw [same], isFile⟩
    · rw [if_neg same] at isFile
      cases isFile

/-- Names that lead to an entry of a proper directory are valid. -/
theorem isValidName_of_find? {directory : Directory} (proper : directory.isProper = true)
    {names : List String} {node : Node} (found : directory.find? names = some node) :
    ∀ name ∈ names, isValidName name = true := by
  induction names generalizing directory with
  | nil => simp
  | cons first rest ih =>
    intro name mem
    by_cases more : rest = []
    · subst more
      rw [find?_singleton] at found
      obtain rfl := List.mem_singleton.mp mem
      exact isValidName_of_lookup proper found
    · obtain ⟨entries, first_found, rest_found⟩ := (find?_cons more).mp found
      rcases List.mem_cons.mp mem with rfl | later
      · exact isValidName_of_lookup proper first_found
      · have entries_proper := isProper_of_lookup_folder proper first_found
        exact ih entries_proper rest_found name later

/-! ## All names -/

/-- The names of the entries of a directory and of those below it. -/
def allNames : Directory → List String
  | empty => []
  | file name _ others => name :: others.allNames
  | folder name entries others => name :: (entries.allNames ++ others.allNames)

theorem mem_allNames_of_lookup {directory : Directory} {name : String} {node : Node}
    (found : directory.lookup name = some node) : name ∈ directory.allNames := by
  induction directory with
  | empty => cases found
  | file other bytes others ih =>
    rw [lookup] at found
    split at found
    · rename_i same
      exact same ▸ List.mem_cons_self
    · exact List.mem_cons_of_mem other (ih found)
  | folder other entries others _ ih =>
    rw [lookup] at found
    split at found
    · rename_i same
      exact same ▸ List.mem_cons_self
    · exact List.mem_cons_of_mem other (List.mem_append_right _ (ih found))

theorem allNames_subset_of_lookup {directory entries : Directory} {name : String}
    (found : directory.lookup name = some (.folder entries)) :
    entries.allNames ⊆ directory.allNames := by
  induction directory with
  | empty => cases found
  | file other bytes others ih =>
    rw [lookup] at found
    split at found
    · cases found
    · exact List.subset_cons_of_subset other (ih found)
  | folder other inner others _ ih =>
    rw [lookup] at found
    split at found
    · obtain rfl : inner = entries := by simpa using found
      exact List.subset_cons_of_subset other (List.subset_append_left _ _)
    · exact List.subset_cons_of_subset other (List.subset_append_of_subset_right _ (ih found))

/-- Names that lead to something are names of entries. -/
theorem mem_allNames_of_find? {directory : Directory} {names : List String} {node : Node}
    (found : directory.find? names = some node) : ∀ name ∈ names, name ∈ directory.allNames := by
  induction names generalizing directory with
  | nil => simp
  | cons first rest ih =>
    by_cases more : rest = []
    · subst more
      rw [find?_singleton] at found
      exact List.forall_mem_singleton.mpr (mem_allNames_of_lookup found)
    · obtain ⟨entries, first_found, rest_found⟩ := (find?_cons more).mp found
      refine List.forall_mem_cons.mpr ⟨mem_allNames_of_lookup first_found, fun name mem => ?_⟩
      exact allNames_subset_of_lookup first_found (ih rest_found name mem)

end TraceInquest.Directory

namespace TraceInquest

/-- A valid name holds no slash. -/
theorem not_mem_of_isValidName {name : String} (valid : isValidName name = true) :
    '/' ∉ name.toList := by
  simp only [isValidName, Bool.and_eq_true, List.all_eq_true] at valid
  intro mem
  have kept := valid.1.2 '/' mem
  simp at kept

end TraceInquest
