import TraceInquest.Proofs.FileSystem.Entry

/-! # Following the components of a location

The text of a location is followed like its components, one after the other, from the root or from
the working directory.

* **`Location.IsPlain`** — whether the components of a location name something, as those of a path
  do.
* **`FileSystem.resolve_text`** — the text of a location leads where its components lead. -/

namespace TraceInquest

/-! ## Locations -/

namespace Location

/-- Whether the components of a location name something, as those of a path do. -/
structure IsPlain (location : Location) : Prop where
  root_mem : location.root = "" ∨ location.root = "/" ∨ location.root = "//"
  parts_plain : ∀ part ∈ location.parts, part ≠ "" ∧ part ≠ "." ∧ '/' ∉ part.toList

theorem isPlain_ofPath (path : String) : (ofPath path).IsPlain where
  root_mem := by
    rw [ofPath, rootOf]
    split <;> simp
  parts_plain := by
    intro part mem
    obtain ⟨listed, naming⟩ := List.mem_filter.mp mem
    rw [Bool.and_eq_true, bne_iff_ne, bne_iff_ne] at naming
    exact ⟨naming.1, naming.2, Path.not_mem_of_mem_components listed⟩

variable {location : Location}

/-- A location behind which a valid name is put is plain. -/
theorem IsPlain.child (plain : location.IsPlain) {name : String}
    (valid : isValidName name = true) : (location.child name).IsPlain where
  root_mem := plain.root_mem
  parts_plain := by
    intro part mem
    rcases List.mem_append.mp mem with mem | mem
    · exact plain.parts_plain part mem
    · obtain rfl := List.mem_singleton.mp mem
      have slashless := not_mem_of_isValidName valid
      simp only [isValidName, Bool.and_eq_true, bne_iff_ne] at valid
      exact ⟨valid.1.1.1.1, valid.1.1.1.2, slashless⟩

/-- The beginnings of a plain location are plain. -/
theorem IsPlain.of_prefix (plain : location.IsPlain) {parts : List String}
    (initial : parts <+: location.parts) : (Location.mk location.root parts).IsPlain where
  root_mem := plain.root_mem
  parts_plain part mem := plain.parts_plain part (initial.subset mem)

theorem text_of_ne_nil (nonempty : location.parts ≠ []) :
    location.text = location.root ++ Path.ofComponents location.parts := by
  rw [text, if_neg (by simp [nonempty])]

theorem IsPlain.components_ofComponents (plain : location.IsPlain)
    (nonempty : location.parts ≠ []) :
    Path.components (Path.ofComponents location.parts) = location.parts :=
  Path.components_ofComponents nonempty fun part mem => (plain.parts_plain part mem).2.2

/-- The components of a location with one at least make a path that is neither empty nor starts at
the root. -/
theorem IsPlain.relative (plain : location.IsPlain) (nonempty : location.parts ≠ []) :
    Path.ofComponents location.parts ≠ "" ∧
      Path.isAbsolute (Path.ofComponents location.parts) = false := by
  have parts_eq := plain.components_ofComponents nonempty
  constructor
  · intro empty
    rw [empty] at parts_eq
    have mem : "" ∈ location.parts := by
      rw [← parts_eq]
      decide
    exact (plain.parts_plain "" mem).1 rfl
  · rw [Bool.eq_false_iff]
    intro absolute
    obtain ⟨rest, components_eq⟩ := Path.components_of_isAbsolute absolute
    have mem : "" ∈ location.parts := by
      rw [← parts_eq, components_eq]
      exact List.mem_cons_self
    exact (plain.parts_plain "" mem).1 rfl

end Location

/-! ## Following them -/

namespace FileSystem

variable {system : FileSystem} {location : Location}

/-- Where a location starts: at the root or at the working directory. -/
def startAt (system : FileSystem) (root : String) : List String :=
  if root.isEmpty then system.working else []

/-- An empty component at the root leads nowhere else. -/
theorem foldlM_follow_empty (parts : List String) :
    ("" :: parts).foldlM system.follow [] = parts.foldlM system.follow [] := by
  have stays : system.follow [] "" = .ok [] := by
    simp [follow, node?, Directory.find?]
  rw [List.foldlM_cons, stays]
  rfl

/-- The text of a location leads where its components lead. -/
theorem resolve_text (plain : location.IsPlain) (nonempty : location.parts ≠ [])
    (checked : checkPath location.text = .ok ()) :
    system.resolve location.text =
      location.parts.foldlM system.follow (system.startAt location.root) := by
  obtain ⟨not_empty, not_absolute⟩ := plain.relative nonempty
  have parts_eq := plain.components_ofComponents nonempty
  rw [Location.text_of_ne_nil nonempty] at checked ⊢
  rw [resolve_of_checkPath checked (by simp [not_empty]), startOf, startAt]
  -- every slash at the start stands for an empty component, which stays at the root
  rcases plain.root_mem with root | root | root
  · rw [root, String.empty_append, not_absolute, parts_eq]
    rfl
  · rw [root, if_pos (Path.isAbsolute_slash_append _), if_neg (by decide),
      Path.components_slash_append, parts_eq]
    exact foldlM_follow_empty location.parts
  · rw [root, show "//" = "/" ++ "/" from rfl, String.append_assoc,
      if_pos (Path.isAbsolute_slash_append _), if_neg (by decide), Path.components_slash_append,
      Path.components_slash_append, parts_eq]
    exact (foldlM_follow_empty _).trans (foldlM_follow_empty location.parts)

end FileSystem

end TraceInquest
