import TraceInquest.Proofs.FileSystem.Below

/-! # File systems with other bytes in one file

Where one file gets other bytes, every path leads where it led before, and what is read from it is
the same unless it leads to that file.

* **`FileSystem.Overwrites`** — whether a file system differs in the bytes of one file only.
* **`overwrites_place`** — putting other bytes into a file does that.
* **`Overwrites.resolve`**, **`Overwrites.readBytes_of_ne`** — where paths lead, and what is read
  from the paths that lead elsewhere.
* **`Overwrites.entries?`** — the directories that paths denote have the same files. -/

namespace TraceInquest.FileSystem

/-- Whether a file system has other bytes in the file to which names lead, and is the same
otherwise. -/
structure Overwrites (before after : FileSystem) (names : List String) (bytes : List UInt8) :
    Prop where
  working : after.working = before.working
  isFile : ∃ old, before.kind? names = some (.file old)
  kind : ∀ other, after.kind? other =
    if other = names then some (.file bytes) else before.kind? other

variable {system before after : FileSystem} {names : List String} {bytes : List UInt8}

/-- Putting other bytes into a file changes nothing else. -/
theorem overwrites_place {old : List UInt8} (isFile : system.node? names = some (.file old))
    (bytes : List UInt8) : Overwrites system (system.place names (.file bytes)) names bytes := by
  rcases List.eq_nil_or_concat names with rfl | ⟨parent, name, rfl⟩
  · cases isFile
  rw [List.concat_eq_append] at isFile ⊢
  obtain ⟨entries, isFolder, found⟩ := Directory.find?_append_singleton.mp isFile
  have free : ∀ inner, entries.lookup name ≠ some (.folder inner) := by
    intro inner
    simp [found]
  have valid := Directory.isValidName_of_find? system.proper isFile name (by simp)
  exact {
    working := working_place _ _
    isFile := ⟨old, kind?_eq_file_iff.mpr isFile⟩
    kind := kind?_place isFolder free valid (.file bytes) }

/-- What is read is decided by the kind of what a path leads to. -/
theorem readBytes_eq (system : FileSystem) (path : String) :
    system.readBytes path = system.resolve path >>= fun names =>
      match system.kind? names with
      | some (.file bytes) => .ok bytes
      | some .folder => .error .isDirectory
      | none => .error .missing := by
  rw [readBytes, get]
  cases system.resolve path with
  | error fault => rfl
  | ok names =>
    rw [except_ok_bind, except_ok_bind,
      show system.kind? names = (system.node? names).map Node.kind from rfl]
    cases system.node? names with
    | none => rfl
    | some node => cases node <;> rfl

namespace Overwrites

variable (overwrites : Overwrites before after names bytes)
include overwrites

/-- Components are followed to the same names. -/
theorem follow : after.follow = before.follow := by
  funext there component
  have same_entry : ∀ other, (after.kind? other).isSome = (before.kind? other).isSome := by
    intro other
    rw [overwrites.kind]
    split
    · rename_i same
      obtain ⟨old, isFile⟩ := overwrites.isFile
      rw [same, isFile]
      rfl
    · rfl
  rw [follow_eq, follow_eq]
  by_cases same : there = names
  · obtain ⟨old, isFile⟩ := overwrites.isFile
    rw [overwrites.kind, if_pos same, same, isFile]
  · simp only [overwrites.kind there, if_neg same, same_entry]

/-- A path leads where it led before. -/
theorem resolve (path : String) : after.resolve path = before.resolve path := by
  rw [FileSystem.resolve, FileSystem.resolve, overwrites.follow, startOf, startOf,
    overwrites.working]

/-- What is read from any other path stays the same. -/
theorem readBytes_of_ne {path : String} (elsewhere : before.resolve path ≠ .ok names) :
    after.readBytes path = before.readBytes path := by
  rw [readBytes_eq, readBytes_eq, overwrites.resolve]
  cases resolved : before.resolve path with
  | error fault => rfl
  | ok there =>
    rw [except_ok_bind, except_ok_bind, overwrites.kind, if_neg]
    rintro rfl
    exact elsewhere resolved

theorem readText_of_ne {path : String} (elsewhere : before.resolve path ≠ .ok names) :
    after.readText path = before.readText path := by
  rw [readText, readText, overwrites.readBytes_of_ne elsewhere]

/-- Names lead to a file exactly if they did. -/
theorem exists_file_iff (other : List String) :
    (∃ content, after.node? other = some (.file content)) ↔
      ∃ content, before.node? other = some (.file content) := by
  simp only [← kind?_eq_file_iff, overwrites.kind]
  split
  · rename_i same
    rw [same]
    exact iff_of_true ⟨bytes, rfl⟩ overwrites.isFile
  · rfl

/-- A path that denoted a directory denotes one with files at the same names. -/
theorem entries? {path : String} {directory : Directory}
    (isFolder : before.entries? path = some directory) :
    ∃ changed, after.entries? path = some changed ∧
      ∀ rest, (∃ content, directory.find? rest = some (.file content)) ↔
        ∃ content, changed.find? rest = some (.file content) := by
  obtain ⟨here, resolved, found⟩ := get_eq_ok_iff.mp (entries?_eq_some_iff.mp isFolder)
  have other : here ≠ names := by
    rintro rfl
    obtain ⟨old, isFile⟩ := overwrites.isFile
    rw [kind?_eq_file_iff, found] at isFile
    cases isFile
  have kept : after.kind? here = some .folder := by
    rw [overwrites.kind, if_neg other]
    exact kind?_eq_folder_iff.mpr ⟨directory, found⟩
  obtain ⟨changed, changed_found⟩ := kind?_eq_folder_iff.mp kept
  refine ⟨changed, ?_, fun rest => ?_⟩
  · rw [← overwrites.resolve] at resolved
    exact entries?_eq_some_iff.mpr (get_eq_ok_iff.mpr ⟨here, resolved, changed_found⟩)
  · have same := overwrites.exists_file_iff (here ++ rest)
    rw [node?_append changed_found, node?_append found] at same
    exact same.symm

end Overwrites

end TraceInquest.FileSystem
