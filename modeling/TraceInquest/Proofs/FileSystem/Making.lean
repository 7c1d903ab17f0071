import TraceInquest.Proofs.FileSystem.Edit
import TraceInquest.Proofs.FileSystem.Location

/-! # Making directories and writing a file

Making the directories on the way to a location adds empty directories at the beginnings of the
location and does nothing else, also where not all of them can be made. Writing a file changes what
is at its location and nothing else.

* **`FileSystem.HasEntry`** — where the entry of a location is.
* **`FileSystem.MakesOnlyFolders`** — what making directories may do;
  **`makesOnlyFolders_makeFolders`** — it does no more.
* **`FileSystem.isFolder_makeFolders`** — without a fault the directory is there.
* **`FileSystem.WritesOnly`** — what writing a file does; **`writesOnly_of_writeFile`** and
  **`WritesOnly.readBytes`** — it does so, and what was written can be read. -/

namespace TraceInquest.FileSystem

variable {system changed before middle after : FileSystem} {location target : Location}
  {parent : List String} {name : String} {entries : Directory}

/-! ## The entry of a location -/

/-- Whether a location names an entry, which may not exist yet, of a directory. -/
structure HasEntry (system : FileSystem) (location : Location) (parent : List String)
    (name : String) (entries : Directory) : Prop where
  checked : checkPath location.text = .ok ()
  leads : ∃ front, location.parts = front ++ [name] ∧
    front.foldlM system.follow (system.startAt location.root) = .ok parent
  isFolder : system.node? parent = some (.folder entries)
  short : name.utf8ByteSize ≤ maxNameSize
  downwards : name ≠ ".."

theorem resolveEntry_eq_ok {root : String} {front : List String} {names : List String}
    {node : Option Node} (resolved : system.resolveEntry root front name = .ok (names, node)) :
    ∃ parent entries, front.foldlM system.follow (system.startAt root) = .ok parent ∧
      system.node? parent = some (.folder entries) ∧ name.utf8ByteSize ≤ maxNameSize ∧
      names = parent ++ [name] ∧ node = entries.lookup name := by
  obtain ⟨parent, followed, ended⟩ := except_bind_eq_ok.mp resolved
  cases found : system.node? parent with
  | none => simp [found] at ended
  | some there =>
    cases there with
    | file bytes => simp [found] at ended
    | folder entries =>
      simp only [found] at ended
      split at ended
      · cases ended
      · rename_i short
        obtain ⟨rfl, rfl⟩ := Prod.mk.inj (Except.ok.inj ended)
        exact ⟨parent, entries, followed, found, Nat.not_lt.mp short, rfl, rfl⟩

/-- A directory that can be made is put where nothing is. -/
theorem exists_hasEntry_of_makeFolder (made : system.makeFolder location = .ok changed) :
    ∃ parent name entries, system.HasEntry location parent name entries ∧
      entries.lookup name = none ∧
      changed = system.place (parent ++ [name]) Kind.folder.node := by
  obtain ⟨done, checked, made⟩ := except_bind_eq_ok.mp made
  split at made
  · cases made
  · rename_i name last
    obtain ⟨⟨names, node⟩, resolved, made⟩ := except_bind_eq_ok.mp made
    obtain ⟨parent, entries, followed, isFolder, short, rfl, rfl⟩ := resolveEntry_eq_ok resolved
    simp only at made
    split at made
    · cases made
    · rename_i free
      obtain ⟨downwards, absent⟩ := not_or.mp free
      refine ⟨parent, name, entries, ?_, by simpa using absent, (Except.ok.inj made).symm⟩
      exact {
        checked
        leads := ⟨location.parts.dropLast, (List.dropLast_append_getLast? name last).symm, followed⟩
        isFolder, short, downwards }

/-- A file that can be written is put where no directory is. -/
theorem exists_hasEntry_of_writeFile {bytes : List UInt8}
    (written : system.writeFile location bytes = .ok changed) :
    ∃ parent name entries, system.HasEntry location parent name entries ∧
      (∀ inner, entries.lookup name ≠ some (.folder inner)) ∧
      changed = system.place (parent ++ [name]) (Kind.file bytes).node := by
  obtain ⟨done, checked, written⟩ := except_bind_eq_ok.mp written
  split at written
  · cases written
  · rename_i name last
    -- the entry is resolved, no directory is in its place, and it is not named by dots
    obtain ⟨⟨names, node⟩, resolved, written⟩ := except_bind_eq_ok.mp written
    obtain ⟨parent, entries, followed, isFolder, short, rfl, rfl⟩ := resolveEntry_eq_ok resolved
    simp only at written
    split at written
    · cases written
    · rename_i free
      split at written
      · cases written
      · rename_i downwards
        refine ⟨parent, name, entries, ?_, free, (Except.ok.inj written).symm⟩
        exact {
          checked
          leads :=
            ⟨location.parts.dropLast, (List.dropLast_append_getLast? name last).symm, followed⟩
          isFolder, short, downwards }

theorem startAt_place (names : List String) (node : Node) (root : String) :
    (system.place names node).startAt root = system.startAt root := by
  rw [startAt, working_place]
  rfl

namespace HasEntry

theorem ne_nil (entry : system.HasEntry location parent name entries) : location.parts ≠ [] := by
  obtain ⟨front, parts_eq, -⟩ := entry.leads
  simp [parts_eq]

/-- The last component of a plain location is a valid name. -/
theorem isValidName (entry : system.HasEntry location parent name entries)
    (plain : location.IsPlain) : isValidName name = true := by
  obtain ⟨front, parts_eq, -⟩ := entry.leads
  have mem : name ∈ location.parts := by simp [parts_eq]
  obtain ⟨not_empty, not_dot, slashless⟩ := plain.parts_plain name mem
  -- that the name holds no NUL follows from the text of the location, of which it is a part
  have nulless : '\x00' ∉ name.toList := by
    intro nul
    have checked := (checkPath_eq_ok_iff.mp entry.checked).1
    rw [Location.text_of_ne_nil entry.ne_nil, String.toList_append] at checked
    exact checked (List.mem_append_right _ (Path.mem_toList_ofComponents mem nul))
  have plain_chars : ∀ c ∈ name.toList, c ≠ '/' ∧ c ≠ '\x00' := by
    intro c mem
    constructor
    · rintro rfl
      exact slashless mem
    · rintro rfl
      exact nulless mem
  simpa [TraceInquest.isValidName, not_empty, not_dot, entry.downwards, entry.short] using
    plain_chars

/-- What is at a location where no directory is. -/
theorem kind?_ne_folder (entry : system.HasEntry location parent name entries)
    (free : ∀ inner, entries.lookup name ≠ some (.folder inner)) :
    system.kind? (parent ++ [name]) ≠ some .folder := by
  rw [kind?_append_singleton entry.isFolder]
  intro found
  obtain ⟨node, entry_found, is_folder⟩ := Option.map_eq_some_iff.mp found
  cases node with
  | file bytes => cases is_folder
  | folder inner => exact free inner entry_found

variable (entry : system.HasEntry location parent name entries) (plain : location.IsPlain)
  (free : ∀ inner, entries.lookup name ≠ some (.folder inner)) (kind : Kind)

include entry plain free

theorem kind?_place (other : List String) :
    (system.place (parent ++ [name]) kind.node).kind? other =
      if other = parent ++ [name] then some kind else system.kind? other :=
  FileSystem.kind?_place entry.isFolder free (entry.isValidName plain) kind other

theorem grows_place : Grows system (system.place (parent ++ [name]) kind.node) where
  working := working_place _ _
  folders names found := by
    rw [entry.kind?_place plain free, if_neg, found]
    rintro rfl
    exact entry.kind?_ne_folder free found
  entries names found := by
    rw [entry.kind?_place plain free]
    split
    · rfl
    · exact found

/-- The location leads to what is put there. -/
theorem resolve_place :
    (system.place (parent ++ [name]) kind.node).resolve location.text =
      .ok (parent ++ [name]) := by
  have grows := entry.grows_place plain free kind
  obtain ⟨front, parts_eq, followed⟩ := entry.leads
  have valid := entry.isValidName plain
  simp only [TraceInquest.isValidName, Bool.and_eq_true, bne_iff_ne] at valid
  obtain ⟨⟨⟨⟨not_empty, not_dot⟩, not_dots⟩, -⟩, -⟩ := valid
  have there := entry.kind?_place plain free kind (parent ++ [name])
  rw [if_pos rfl] at there
  -- the last component leads from the directory, which is still there, to the new entry
  have last : (system.place (parent ++ [name]) kind.node).follow parent name =
      .ok (parent ++ [name]) := by
    rw [follow_eq, grows.folders parent (kind?_eq_folder_iff.mpr ⟨entries, entry.isFolder⟩)]
    simp [not_empty, not_dot, not_dots, Nat.not_lt.mpr entry.short, there]
  rw [resolve_text plain entry.ne_nil entry.checked, parts_eq, List.foldlM_append,
    startAt_place, grows.foldlM_follow followed]
  exact (bind_pure _).trans last

/-- The directory is still there, with what was put into it. -/
theorem exists_place :
    ∃ changed, (system.place (parent ++ [name]) kind.node).HasEntry location parent name changed ∧
      (changed.lookup name).map Node.kind = some kind := by
  have grows := entry.grows_place plain free kind
  obtain ⟨front, parts_eq, followed⟩ := entry.leads
  obtain ⟨changed, isFolder⟩ := kind?_eq_folder_iff.mp
    (grows.folders parent (kind?_eq_folder_iff.mpr ⟨entries, entry.isFolder⟩))
  refine ⟨changed, ?_, ?_⟩
  · exact {
      checked := entry.checked
      leads := ⟨front, parts_eq, by rw [startAt_place, grows.foldlM_follow followed]⟩
      isFolder, short := entry.short, downwards := entry.downwards }
  · rw [← kind?_append_singleton isFolder, entry.kind?_place plain free, if_pos rfl]

end HasEntry

/-! ## Making directories -/

/-- What making the directories on the way to a location may do: what is there stays, and what is
new is a directory at a beginning of the location. -/
structure MakesOnlyFolders (target : Location) (before after : FileSystem) : Prop where
  working : after.working = before.working
  kept : ∀ names kind, before.kind? names = some kind → after.kind? names = some kind
  made : ∀ names kind, after.kind? names = some kind → before.kind? names = some kind ∨
    kind = .folder ∧ ∃ parts, parts <+: target.parts ∧
      after.resolve (Location.mk target.root parts).text = .ok names

namespace MakesOnlyFolders

theorem refl (target : Location) (system : FileSystem) : MakesOnlyFolders target system system where
  working := rfl
  kept _ _ found := found
  made _ _ found := .inl found

theorem grows (makes : MakesOnlyFolders target before after) : Grows before after where
  working := makes.working
  folders names found := makes.kept names .folder found
  entries names found := by
    obtain ⟨kind, found⟩ := Option.isSome_iff_exists.mp found
    rw [makes.kept names kind found]
    rfl

/-- The files are the same as before. -/
theorem node?_eq_file_iff (makes : MakesOnlyFolders target before after) {names : List String}
    {bytes : List UInt8} :
    after.node? names = some (.file bytes) ↔ before.node? names = some (.file bytes) := by
  rw [← kind?_eq_file_iff, ← kind?_eq_file_iff]
  constructor
  · intro found
    rcases makes.made names _ found with old | ⟨isFolder, -⟩
    · exact old
    · cases isFolder
  · exact makes.kept names _

theorem trans (first : MakesOnlyFolders target before middle)
    (second : MakesOnlyFolders target middle after) : MakesOnlyFolders target before after where
  working := second.working.trans first.working
  kept names kind found := second.kept names kind (first.kept names kind found)
  made names kind found := by
    rcases second.made names kind found with earlier | new
    · rcases first.made names kind earlier with old | ⟨isFolder, parts, initial, resolved⟩
      · exact .inl old
      · -- what was made first still lies at its location, as nothing was taken away since
        exact .inr ⟨isFolder, parts, initial, second.grows.resolve resolved⟩
    · exact .inr new

end MakesOnlyFolders

/-- Making one directory at a beginning of a location. -/
theorem makesOnlyFolders_of_makeFolder (plain : target.IsPlain) {parts : List String}
    (initial : parts <+: target.parts)
    (made : system.makeFolder ⟨target.root, parts⟩ = .ok changed) :
    MakesOnlyFolders target system changed := by
  obtain ⟨parent, name, entries, entry, absent, rfl⟩ := exists_hasEntry_of_makeFolder made
  have parts_plain := plain.of_prefix initial
  have free : ∀ inner, entries.lookup name ≠ some (.folder inner) := by simp [absent]
  have placed := entry.kind?_place parts_plain free .folder
  refine ⟨working_place _ _, fun names kind found => ?_, fun names kind found => ?_⟩
  · -- nothing was where the directory is made
    rw [placed, if_neg, found]
    rintro rfl
    rw [kind?_append_singleton entry.isFolder, absent] at found
    cases found
  · rw [placed] at found
    split at found
    · rename_i same
      subst same
      exact .inr ⟨(Option.some.inj found).symm, parts, initial,
        entry.resolve_place parts_plain free .folder⟩
    · exact .inl found

theorem eq_or_makeFolder_of_ensureFolder (ensured : system.ensureFolder location = .ok changed) :
    system.makeFolder location = .ok changed ∨
      changed = system ∧ system.isFolder location.text = true := by
  rw [ensureFolder] at ensured
  split at ensured
  · cases ensured
  · cases ensured
  · split at ensured
    · rename_i isFolder
      exact .inr ⟨(Except.ok.inj ensured).symm, isFolder⟩
    · cases ensured
  · rename_i made
    exact .inl (made.trans ensured)

theorem makesOnlyFolders_ensure (plain : target.IsPlain) {parts : List String}
    (initial : parts <+: target.parts) (made : Made) :
    MakesOnlyFolders target made.system (made.ensure ⟨target.root, parts⟩).system := by
  rw [Made.ensure]
  split
  · exact .refl target made.system
  · split
    · rename_i changed ensured
      rcases eq_or_makeFolder_of_ensureFolder ensured with made | ⟨rfl, -⟩
      · exact makesOnlyFolders_of_makeFolder plain initial made
      · exact .refl target _
    · exact .refl target made.system

/-- Making the directories on the way to a beginning of a location. -/
theorem makesOnlyFolders_makeFoldersFrom (plain : target.IsPlain) {reversed : List String}
    (initial : reversed.reverse <+: target.parts) :
    MakesOnlyFolders target system (makeFoldersFrom target.root reversed system).system := by
  induction reversed with
  | nil => exact makesOnlyFolders_ensure plain initial { system }
  | cons name above ih =>
    rw [makeFoldersFrom]
    -- if the parent is missing, the directories above are made first
    split
    · have above_initial : above.reverse <+: target.parts :=
        (List.prefix_append above.reverse [name]).trans (List.reverse_cons ▸ initial)
      exact (ih above_initial).trans (makesOnlyFolders_ensure plain initial _)
    · exact makesOnlyFolders_ensure plain initial { system }

/-- Making the directories on the way to a location does nothing else, whether or not all of them
can be made. -/
theorem makesOnlyFolders_makeFolders (plain : target.IsPlain) (system : FileSystem) :
    MakesOnlyFolders target system (system.makeFolders target).system :=
  makesOnlyFolders_makeFoldersFrom plain ⟨[], by rw [List.append_nil, List.reverse_reverse]⟩

/-- What writing a file at a location does: the location leads to the new file, nothing else is
changed, and nothing but a file is replaced. -/
structure WritesOnly (location : Location) (bytes : List UInt8) (before after : FileSystem) :
    Prop where
  working : after.working = before.working
  written : ∃ names, after.resolve location.text = .ok names ∧
    before.kind? names ≠ some .folder ∧
    ∀ other, after.kind? other =
      if other = names then some (.file bytes) else before.kind? other

theorem writesOnly_of_writeFile (plain : location.IsPlain) {bytes : List UInt8}
    (written : system.writeFile location bytes = .ok changed) :
    WritesOnly location bytes system changed := by
  obtain ⟨parent, name, entries, entry, free, rfl⟩ := exists_hasEntry_of_writeFile written
  refine ⟨working_place _ _, parent ++ [name], entry.resolve_place plain free _,
    entry.kind?_ne_folder free, entry.kind?_place plain free _⟩

/-- A file can be written wherever an entry may be and no directory is. -/
theorem HasEntry.exists_writeFile (entry : system.HasEntry location parent name entries)
    (free : ∀ inner, entries.lookup name ≠ some (.folder inner)) (bytes : List UInt8) :
    ∃ changed, system.writeFile location bytes = .ok changed := by
  obtain ⟨front, parts_eq, followed⟩ := entry.leads
  have resolved : system.resolveEntry location.root front name =
      .ok (parent ++ [name], entries.lookup name) := by
    rw [resolveEntry]
    show (front.foldlM system.follow (system.startAt location.root) >>= _) = _
    rw [followed, except_ok_bind, entry.isFolder]
    exact if_neg (Nat.not_lt.mpr entry.short)
  have last : location.parts.getLast? = some name := by rw [parts_eq, List.getLast?_concat]
  have initial : location.parts.dropLast = front := by rw [parts_eq, List.dropLast_concat]
  rw [writeFile, entry.checked, except_ok_bind, last]
  dsimp only
  rw [initial, resolved, except_ok_bind]
  dsimp only
  split
  · rename_i inner found
    exact absurd found (free inner)
  · exact ⟨_, if_neg entry.downwards⟩

namespace WritesOnly

variable {bytes other : List UInt8}

theorem grows (writes : WritesOnly location bytes before after) : Grows before after := by
  obtain ⟨names, -, free, kinds⟩ := writes.written
  refine ⟨writes.working, fun folder isFolder => ?_, fun entry isEntry => ?_⟩
  · rw [kinds, if_neg, isFolder]
    rintro rfl
    exact free isFolder
  · rw [kinds]
    split
    · rfl
    · exact isEntry

/-- A file that was written can be written again, and only what is written last counts. -/
theorem trans (first : WritesOnly location bytes before middle)
    (second : WritesOnly location other middle after) : WritesOnly location other before after := by
  obtain ⟨names, resolved, free, kinds⟩ := first.written
  obtain ⟨names', resolved', -, kinds'⟩ := second.written
  obtain rfl : names = names' :=
    Except.ok.inj ((second.grows.resolve resolved).symm.trans resolved')
  refine ⟨second.working.trans first.working, names, resolved', free, fun asked => ?_⟩
  rw [kinds', kinds]
  split <;> rfl

end WritesOnly

/-- A file that was written can be written again. -/
theorem exists_writeFile_again (plain : location.IsPlain) {bytes : List UInt8}
    (written : system.writeFile location bytes = .ok changed) (other : List UInt8) :
    ∃ saved, changed.writeFile location other = .ok saved := by
  obtain ⟨parent, name, entries, entry, free, rfl⟩ := exists_hasEntry_of_writeFile written
  obtain ⟨changed_entries, changed_entry, there⟩ := entry.exists_place plain free (.file bytes)
  refine changed_entry.exists_writeFile (fun inner found => ?_) other
  rw [found] at there
  cases there

/-- What was written can be read. -/
theorem WritesOnly.readBytes {bytes : List UInt8}
    (writes : WritesOnly location bytes before after) :
    after.readBytes location.text = .ok bytes := by
  obtain ⟨names, resolved, -, kinds⟩ := writes.written
  have there := kinds names
  rw [if_pos rfl, kind?_eq_file_iff] at there
  exact readBytes_eq_ok_iff.mpr (get_eq_ok_iff.mpr ⟨names, resolved, there⟩)

end TraceInquest.FileSystem
