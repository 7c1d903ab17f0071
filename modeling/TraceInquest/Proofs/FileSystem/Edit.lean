import TraceInquest.FileSystem.Edit
import TraceInquest.Proofs.FileSystem.Entry

/-! # What a change of a file system leaves alone

Of what names lead to, a change at one entry changes the entry alone: all other names lead to a
directory, to a file of the same bytes, or to nothing, as they did before.

* **`Kind`**, **`FileSystem.kind?`** — what names lead to, apart from what is in a directory.
* **`Directory.kind?_put`**, **`FileSystem.kind?_place`** — the kinds after a change.
* **`FileSystem.follow_eq`** — following a component depends on kinds only.
* **`FileSystem.Grows`** — where nothing is taken away, paths lead where they led before. -/

namespace TraceInquest

/-- What an entry is: a directory, whatever is in it, or a file with its bytes. -/
inductive Kind where
  | folder
  | file (bytes : List UInt8)
  deriving DecidableEq, Repr

/-- The kind of a node. -/
def Node.kind : Node → Kind
  | .file bytes => .file bytes
  | .folder _ => .folder

/-- The node of a kind in which nothing is. -/
def Kind.node : Kind → Node
  | folder => .folder .empty
  | file bytes => .file bytes

theorem Kind.isProper_node (kind : Kind) : kind.node.isProper = true := by
  cases kind <;> rfl

namespace Directory

/-! ## Entries -/

/-- Erasing an entry leaves the others alone. -/
theorem lookup_erase_of_ne {name other : String} (different : other ≠ name)
    (directory : Directory) : (directory.erase name).lookup other = directory.lookup other := by
  induction directory with
  | empty => rfl
  | file entry bytes others ih =>
    rw [erase]
    split
    · rename_i same
      rw [ih, lookup, if_neg (same ▸ different.symm)]
    · rw [lookup, lookup, ih]
  | folder entry entries others _ ih =>
    rw [erase]
    split
    · rename_i same
      rw [ih, lookup, if_neg (same ▸ different.symm)]
    · rw [lookup, lookup, ih]

/-- Setting an entry leaves the others alone. -/
theorem lookup_set (name other : String) (node : Node) (directory : Directory) :
    (directory.set name node).lookup other =
      if other = name then some node else directory.lookup other := by
  by_cases same : other = name
  · subst same
    cases node <;> simp [set, lookup]
  · cases node <;> simp [set, lookup, lookup_erase_of_ne, same, Ne.symm same]

/-! ## Kinds -/

/-- The kind of what names lead to. -/
def kind? (directory : Directory) (names : List String) : Option Kind :=
  (directory.find? names).map Node.kind

end Directory

/-- The kind of what names lead to from a node. -/
def Node.kindAt? : List String → Node → Option Kind
  | names, .folder entries => entries.kind? names
  | [], .file bytes => some (.file bytes)
  | _ :: _, .file _ => none

theorem Kind.kindAt?_node (kind : Kind) (names : List String) :
    kind.node.kindAt? names = if names = [] then some kind else none := by
  cases names <;> cases kind <;> rfl

namespace Directory

theorem kind?_cons (directory : Directory) (name : String) (rest : List String) :
    directory.kind? (name :: rest) = (directory.lookup name).bind (Node.kindAt? rest) := by
  rw [kind?, find?]
  cases directory.lookup name with
  | none => rfl
  | some node =>
    cases node with
    | file bytes => cases rest <;> rfl
    | folder entries => rfl

theorem kind?_set_cons (directory : Directory) (name other : String) (node : Node)
    (rest : List String) :
    (directory.set name node).kind? (other :: rest) =
      if other = name then node.kindAt? rest else directory.kind? (other :: rest) := by
  rw [kind?_cons, lookup_set, kind?_cons]
  split <;> rfl

/-- A directory behind some names lies behind the directory of the first name. -/
theorem exists_lookup_of_find? {directory entries : Directory} {name : String}
    {rest : List String} (found : directory.find? (name :: rest) = some (.folder entries)) :
    ∃ inner, directory.lookup name = some (.folder inner) ∧
      inner.find? rest = some (.folder entries) := by
  by_cases more : rest = []
  · subst more
    rw [find?_singleton] at found
    exact ⟨entries, found, rfl⟩
  · exact (find?_cons more).mp found

theorem put_cons {node : Node} {name : String} {rest : List String} (more : rest ≠ [])
    (directory : Directory) :
    directory.put node (name :: rest) =
      directory.set name (.folder (put node rest (directory.entriesOf name))) := by
  cases rest with
  | nil => exact absurd rfl more
  | cons next rest => rfl

/-- Behind a name at which no directory is nothing is found. -/
theorem kind?_cons_eq_none {directory : Directory} {name : String} {rest : List String}
    (free : ∀ inner, directory.lookup name ≠ some (.folder inner)) (more : rest ≠ []) :
    directory.kind? (name :: rest) = none := by
  rw [kind?_cons]
  cases found : directory.lookup name with
  | none => rfl
  | some node =>
    cases node with
    | folder inner => exact absurd found (free inner)
    | file bytes =>
      obtain ⟨next, others, rfl⟩ := List.exists_cons_of_ne_nil more
      rfl

/-- Setting an empty directory or a file where no directory is changes what its name leads to, and
nothing else. -/
theorem kind?_set_node {directory : Directory} {name : String}
    (free : ∀ inner, directory.lookup name ≠ some (.folder inner)) (kind : Kind)
    (other : List String) :
    (directory.set name kind.node).kind? other =
      if other = [name] then some kind else directory.kind? other := by
  cases other with
  | nil => rfl
  | cons first rest =>
    rw [kind?_set_cons, Kind.kindAt?_node]
    by_cases same : first = name
    · subst same
      by_cases last : rest = []
      · simp [last]
      · simp [last, kind?_cons_eq_none free last]
    · simp [same]

/-- Putting an empty directory or a file where no directory is changes what its names lead to, and
nothing else. -/
theorem kind?_put {directory entries : Directory} {parent : List String} {name : String}
    (isFolder : directory.find? parent = some (.folder entries))
    (free : ∀ inner, entries.lookup name ≠ some (.folder inner)) (kind : Kind)
    (other : List String) :
    (directory.put kind.node (parent ++ [name])).kind? other =
      if other = parent ++ [name] then some kind else directory.kind? other := by
  -- along the names that lead to the directory: behind the first of them the directory of that
  -- name is changed in the same way
  induction parent generalizing directory other with
  | nil =>
    obtain rfl : directory = entries := by simpa [find?] using isFolder
    exact kind?_set_node free kind other
  | cons first parent ih =>
    obtain ⟨inner, first_found, rest_found⟩ := exists_lookup_of_find? isFolder
    have inside : directory.entriesOf first = inner := by
      rw [entriesOf, first_found]
    rw [List.cons_append, put_cons (by simp), inside]
    cases other with
    | nil => rfl
    | cons asked rest =>
      rw [kind?_set_cons]
      by_cases same : asked = first
      · subst same
        have before : directory.kind? (asked :: rest) = inner.kind? rest := by
          rw [kind?_cons, first_found]
          rfl
        rw [if_pos rfl, before, Node.kindAt?, ih rest_found rest]
        simp
      · simp [same]

end Directory

namespace FileSystem

/-- The kind of what names lead to from the root. -/
def kind? (system : FileSystem) (names : List String) : Option Kind := system.root.kind? names

variable {system before after : FileSystem}

theorem kind?_eq_folder_iff {names : List String} :
    system.kind? names = some .folder ↔ ∃ entries, system.node? names = some (.folder entries) := by
  rw [kind?, Directory.kind?, ← node?]
  cases system.node? names with
  | none => simp
  | some node => cases node <;> simp [Node.kind]

theorem kind?_eq_file_iff {names : List String} {bytes : List UInt8} :
    system.kind? names = some (.file bytes) ↔ system.node? names = some (.file bytes) := by
  rw [kind?, Directory.kind?, ← node?]
  cases system.node? names with
  | none => simp
  | some node => cases node <;> simp [Node.kind]

/-- Behind a directory a name leads to the entry of that name. -/
theorem kind?_append_singleton {names : List String} {entries : Directory}
    (isFolder : system.node? names = some (.folder entries)) (name : String) :
    system.kind? (names ++ [name]) = (entries.lookup name).map Node.kind := by
  rw [← node?_append_singleton isFolder]
  rfl

@[simp] theorem working_place (names : List String) (node : Node) :
    (system.place names node).working = system.working := by
  rw [place]
  split <;> rfl

/-- Placing an empty directory or a file where no directory is changes what its names lead to, and
nothing else. -/
theorem kind?_place {parent : List String} {name : String} {entries : Directory}
    (isFolder : system.node? parent = some (.folder entries))
    (free : ∀ inner, entries.lookup name ≠ some (.folder inner))
    (valid : isValidName name = true) (kind : Kind) (other : List String) :
    (system.place (parent ++ [name]) kind.node).kind? other =
      if other = parent ++ [name] then some kind else system.kind? other := by
  have all_valid : (parent ++ [name]).all isValidName = true := by
    rw [List.all_append, Bool.and_eq_true, List.all_eq_true]
    exact ⟨Directory.isValidName_of_find? system.proper isFolder, by simpa using valid⟩
  rw [place, dif_pos ⟨all_valid, kind.isProper_node⟩]
  exact Directory.kind?_put isFolder free kind other

/-! ## Following paths -/

/-- Following a component depends on the kinds of what names lead to. -/
theorem follow_eq (names : List String) (component : String) :
    system.follow names component =
      match system.kind? names with
      | none => .error .missing
      | some (.file _) => .error .notDirectory
      | some .folder =>
        if component = "" ∨ component = "." then .ok names
        else if component = ".." then .ok names.dropLast
        else if maxNameSize < component.utf8ByteSize then .error .nameTooLong
        else if (system.kind? (names ++ [component])).isSome then .ok (names ++ [component])
        else .error .missing := by
  rw [follow, show system.kind? names = (system.node? names).map Node.kind from rfl]
  cases found : system.node? names with
  | none => rfl
  | some node =>
    cases node with
    | file bytes => rfl
    | folder entries =>
      simp only [Option.map_some, Node.kind, kind?_append_singleton found, Option.isSome_map]

/-- Whether directories stay directories and nothing is taken away. -/
structure Grows (before after : FileSystem) : Prop where
  working : after.working = before.working
  folders : ∀ names, before.kind? names = some .folder → after.kind? names = some .folder
  entries : ∀ names, (before.kind? names).isSome = true → (after.kind? names).isSome = true

theorem Grows.follow (grows : Grows before after) {names there : List String}
    {component : String} (followed : before.follow names component = .ok there) :
    after.follow names component = .ok there := by
  rw [follow_eq] at followed ⊢
  split at followed
  · cases followed
  · cases followed
  · rename_i isFolder
    rw [grows.folders names isFolder]
    -- only the last question, whether there is an entry, depends on what is there
    have kept := grows.entries (names ++ [component])
    simp only at followed ⊢
    split_ifs at followed ⊢ <;> simp_all

theorem Grows.foldlM_follow (grows : Grows before after) {parts names there : List String}
    (followed : parts.foldlM before.follow names = .ok there) :
    parts.foldlM after.follow names = .ok there := by
  induction parts generalizing names with
  | nil => exact followed
  | cons part parts ih =>
    rw [List.foldlM_cons, except_bind_eq_ok] at followed ⊢
    obtain ⟨next, first, later⟩ := followed
    exact ⟨next, grows.follow first, ih later⟩

/-- Where nothing is taken away, a path leads where it led before. -/
theorem Grows.resolve (grows : Grows before after) {path : String} {names : List String}
    (resolved : before.resolve path = .ok names) : after.resolve path = .ok names := by
  rw [FileSystem.resolve, except_bind_eq_ok] at resolved ⊢
  obtain ⟨done, checked, followed⟩ := resolved
  refine ⟨done, checked, ?_⟩
  split at followed
  · cases followed
  · rename_i nonempty
    rw [if_neg nonempty, startOf, grows.working]
    exact grows.foldlM_follow followed

end FileSystem

end TraceInquest
