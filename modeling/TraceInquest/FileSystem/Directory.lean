/-! # Directories

A directory is a list of entries, each a file with its bytes or a directory of its own. The order
of the entries has no meaning.

* **`Directory`**, **`Node`** — trees of files and directories.
* **`Directory.isProper`** — names are valid and no two entries of a directory share one.
* **`Directory.find?`**, **`put`**, **`remove`** — looking up and changing entries by the names
  that lead to them; changes keep a directory proper. -/

namespace TraceInquest

/-- A directory: its entries, one after the other. -/
inductive Directory where
  /-- No entry. -/
  | empty
  /-- A file with its bytes, and the other entries. -/
  | file (name : String) (bytes : List UInt8) (others : Directory)
  /-- A directory with its entries, and the other entries. -/
  | folder (name : String) (entries : Directory) (others : Directory)
  deriving DecidableEq, Repr

/-- What an entry of a directory is. -/
inductive Node where
  /-- A file with its bytes. -/
  | file (bytes : List UInt8)
  /-- A directory. -/
  | folder (entries : Directory)
  deriving DecidableEq, Repr

/-- The longest name of an entry, in bytes. -/
def maxNameSize : Nat := 255

/-- Whether a text can be the name of an entry. -/
def isValidName (name : String) : Bool :=
  name != "" && name != "." && name != ".." &&
    name.toList.all (fun c => c != '/' && c != '\x00') && name.utf8ByteSize ≤ maxNameSize

namespace Directory

/-- The names of the entries. -/
def names : Directory → List String
  | empty => []
  | file name _ others => name :: others.names
  | folder name _ others => name :: others.names

/-- Whether all names in a directory, and in those under it, are valid and no directory has two
entries of one name. -/
def isProper : Directory → Bool
  | empty => true
  | file name _ others => isValidName name && !others.names.contains name && others.isProper
  | folder name entries others =>
    isValidName name && !others.names.contains name && entries.isProper && others.isProper

end Directory

/-- Whether a node holds no improper directory. -/
def Node.isProper : Node → Bool
  | .file _ => true
  | .folder entries => entries.isProper

namespace Directory

/-- The entry of a name. -/
def lookup (name : String) : Directory → Option Node
  | empty => none
  | file other bytes others => if other = name then some (.file bytes) else others.lookup name
  | folder other entries others =>
    if other = name then some (.folder entries) else others.lookup name

/-- The directory without the entry of a name. -/
def erase (name : String) : Directory → Directory
  | empty => empty
  | file other bytes others =>
    if other = name then others.erase name else file other bytes (others.erase name)
  | folder other entries others =>
    if other = name then others.erase name else folder other entries (others.erase name)

/-- The directory with one entry more, in place of one that has its name. -/
def set (name : String) (node : Node) (directory : Directory) : Directory :=
  match node with
  | .file bytes => file name bytes (directory.erase name)
  | .folder entries => folder name entries (directory.erase name)

/-- The node that names lead to. -/
def find? : List String → Directory → Option Node
  | [], directory => some (.folder directory)
  | name :: rest, directory =>
    match directory.lookup name with
    | some (.folder entries) => find? rest entries
    | some (.file bytes) => if rest.isEmpty then some (.file bytes) else none
    | none => none

/-- The entries of the directory of a name, or no entries. -/
def entriesOf (name : String) (directory : Directory) : Directory :=
  match directory.lookup name with
  | some (.folder entries) => entries
  | _ => empty

/-- The directory with a node where names lead to; directories on the way are made. -/
def put (node : Node) : List String → Directory → Directory
  | [], directory => directory
  | [name], directory => directory.set name node
  | name :: rest, directory => directory.set name (.folder (put node rest (directory.entriesOf name)))

/-- The directory without the node that names lead to. -/
def remove : List String → Directory → Directory
  | [], directory => directory
  | [name], directory => directory.erase name
  | name :: rest, directory =>
    match directory.lookup name with
    | some (.folder entries) => directory.set name (.folder (remove rest entries))
    | _ => directory

/-! ## Changes keep a directory proper -/

theorem mem_names_of_mem_erase {name other : String} {directory : Directory}
    (h : other ∈ (directory.erase name).names) : other ∈ directory.names ∧ other ≠ name := by
  induction directory with
  | empty => simp [erase, names] at h
  | file entry bytes others ih =>
    by_cases same : entry = name
    · simp only [erase, same, if_true] at h
      exact ⟨by simp [names, (ih h).1], (ih h).2⟩
    · simp only [erase, same, if_false, names, List.mem_cons] at h
      rcases h with rfl | h
      · exact ⟨by simp [names], same⟩
      · exact ⟨by simp [names, (ih h).1], (ih h).2⟩
  | folder entry entries others _ ih =>
    by_cases same : entry = name
    · simp only [erase, same, if_true] at h
      exact ⟨by simp [names, (ih h).1], (ih h).2⟩
    · simp only [erase, same, if_false, names, List.mem_cons] at h
      rcases h with rfl | h
      · exact ⟨by simp [names], same⟩
      · exact ⟨by simp [names, (ih h).1], (ih h).2⟩

theorem isProper_erase {name : String} {directory : Directory} (h : directory.isProper = true) :
    (directory.erase name).isProper = true := by
  induction directory with
  | empty => rfl
  | file entry bytes others ih =>
    simp only [isProper, Bool.and_eq_true, Bool.not_eq_true', List.contains_eq_mem,
      decide_eq_false_iff_not] at h
    by_cases same : entry = name
    · simp [erase, same, ih h.2]
    · have : entry ∉ (others.erase name).names := fun mem => h.1.2 (mem_names_of_mem_erase mem).1
      simp [erase, same, isProper, h.1.1, this, ih h.2]
  | folder entry entries others _ ih =>
    simp only [isProper, Bool.and_eq_true, Bool.not_eq_true', List.contains_eq_mem,
      decide_eq_false_iff_not] at h
    by_cases same : entry = name
    · simp [erase, same, ih h.2]
    · have : entry ∉ (others.erase name).names :=
        fun mem => h.1.1.2 (mem_names_of_mem_erase mem).1
      simp [erase, same, isProper, h.1.1.1, h.1.2, this, ih h.2]

theorem isProper_set {name : String} {node : Node} {directory : Directory}
    (valid : isValidName name = true) (node_proper : node.isProper = true)
    (h : directory.isProper = true) : (directory.set name node).isProper = true := by
  have fresh : name ∉ (directory.erase name).names := fun mem => (mem_names_of_mem_erase mem).2 rfl
  cases node with
  | file bytes => simp [set, isProper, valid, fresh, isProper_erase h]
  | folder entries =>
    have : entries.isProper = true := node_proper
    simp [set, isProper, valid, fresh, this, isProper_erase h]

theorem isProper_of_lookup {name : String} {node : Node} {directory : Directory}
    (h : directory.isProper = true) (found : directory.lookup name = some node) :
    node.isProper = true := by
  induction directory with
  | empty => simp [lookup] at found
  | file entry bytes others ih =>
    simp only [isProper, Bool.and_eq_true] at h
    by_cases same : entry = name
    · simp only [lookup, same, if_true, Option.some.injEq] at found
      subst found
      rfl
    · exact ih h.2 (by simpa [lookup, same] using found)
  | folder entry entries others _ ih =>
    simp only [isProper, Bool.and_eq_true] at h
    by_cases same : entry = name
    · simp only [lookup, same, if_true, Option.some.injEq] at found
      subst found
      exact h.1.2
    · exact ih h.2 (by simpa [lookup, same] using found)

theorem isProper_entriesOf {name : String} {directory : Directory}
    (h : directory.isProper = true) : (directory.entriesOf name).isProper = true := by
  unfold entriesOf
  split
  · rename_i entries found
    exact isProper_of_lookup h found
  · rfl

theorem isProper_put {node : Node} (node_proper : node.isProper = true) {path : List String}
    {directory : Directory} (valid : path.all isValidName = true)
    (h : directory.isProper = true) : (directory.put node path).isProper = true := by
  induction path generalizing directory with
  | nil => simpa [put] using h
  | cons name rest ih =>
    simp only [List.all_cons, Bool.and_eq_true] at valid
    cases rest with
    | nil => exact isProper_set valid.1 node_proper h
    | cons next rest =>
      exact isProper_set valid.1 (ih valid.2 (isProper_entriesOf h)) h

theorem isProper_remove {path : List String} {directory : Directory}
    (h : directory.isProper = true) : (directory.remove path).isProper = true := by
  induction path generalizing directory with
  | nil => simpa [remove] using h
  | cons name rest ih =>
    cases rest with
    | nil => exact isProper_erase h
    | cons next rest =>
      simp only [remove]
      split
      · rename_i entries found
        have entries_proper : entries.isProper = true := isProper_of_lookup h found
        refine isProper_set ?_ (ih entries_proper) h
        clear ih entries_proper
        induction directory with
        | empty => simp [lookup] at found
        | file entry bytes others ih =>
          simp only [isProper, Bool.and_eq_true] at h
          by_cases same : entry = name
          · exact same ▸ h.1.1
          · exact ih h.2 (by simpa [lookup, same] using found)
        | folder entry entries others _ ih =>
          simp only [isProper, Bool.and_eq_true] at h
          by_cases same : entry = name
          · exact same ▸ h.1.1.1
          · exact ih h.2 (by simpa [lookup, same] using found)
      · exact h

end Directory

end TraceInquest
