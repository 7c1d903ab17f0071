import TraceInquest.Proofs.Codebase.ScanExact
import TraceInquest.Proofs.Text.Case

/-! # Endings and extensions

A scan asks whether a file name has one of some endings, the report which language belongs to what
stands behind its last full stop. For the endings that are looked for by default both look at the
same text, and every one of them has a language. The report puts the extension into lower case
first, so it knows languages of files that a scan passes over, but only of such that are not written
in lower case.

* **`HasExtension`**, **`extension?_eq_some_iff`** — what stands behind the last full stop.
* **`extensionGroup?_default`** — the groups by which files are listed.
* **`exists_label`**, **`mem_of_label`** — the known extensions and their labels.
* **`detectLanguage_of_isLowerCase`** — capitals beyond ASCII do not matter for a label.
* **`ExtensionsAgree`** — how a scan and the report see the name of a file.
* **`scan_and_labels_agree`** — that they agree on every name, and on all files that are listed. -/

namespace TraceInquest

variable {filename extension label : String}

/-! ## Extensions -/

/-- What stands behind the last full stop of a text, if there is one. -/
def HasExtension (filename extension : String) : Prop :=
  ∃ stem, filename.toList = stem ++ '.' :: extension.toList ∧ '.' ∉ extension.toList

theorem extension?_append {stem extension : List Char} (plain : '.' ∉ extension) :
    extension? (stem ++ '.' :: extension) = some extension := by
  have reversed : (stem ++ '.' :: extension).reverse = extension.reverse ++ '.' :: stem.reverse := by
    simp
  rw [extension?, if_pos (by simp), reversed, Text.takeWhile_append_cons (by simpa using plain),
    List.reverse_reverse]

theorem extension?_eq_some_iff :
    extension? filename.toList = some extension.toList ↔ HasExtension filename extension := by
  constructor
  · intro found
    have stopped : '.' ∈ filename.toList := by
      by_contra absent
      rw [extension?, if_neg (by simpa using absent)] at found
      cases found
    obtain ⟨before, behind, split, plain⟩ := Text.exists_append_cons_of_mem_last stopped
    rw [split, extension?_append plain, Option.some_inj] at found
    exact ⟨before, found ▸ split, found ▸ plain⟩
  · rintro ⟨stem, split, plain⟩
    rw [split, extension?_append plain]

instance : Decidable (HasExtension filename extension) :=
  decidable_of_iff _ extension?_eq_some_iff

theorem HasExtension.unique {other : String} (has : HasExtension filename extension)
    (has_other : HasExtension filename other) : other = extension := by
  rw [← extension?_eq_some_iff] at has has_other
  rw [has, Option.some_inj] at has_other
  exact (String.toList_inj.mp has_other).symm

/-- What stands in front of a text does not matter for its extension. -/
theorem HasExtension.of_suffix {path : String} (has : HasExtension filename extension)
    (ends : filename.toList <:+ path.toList) : HasExtension path extension := by
  obtain ⟨stem, split, plain⟩ := has
  obtain ⟨front, path_eq⟩ := ends
  exact ⟨front ++ stem, by rw [← path_eq, split, List.append_assoc], plain⟩

/-- A text without full stops is an extension if it is an ending behind a full stop. -/
theorem isSuffixOf_iff_hasExtension (plain : '.' ∉ extension.toList) :
    ("." ++ extension).toList.isSuffixOf filename.toList = true ↔
      HasExtension filename extension := by
  rw [List.isSuffixOf_iff_suffix]
  constructor
  · rintro ⟨stem, split⟩
    exact ⟨stem, by rw [← split, String.toList_append]; rfl, plain⟩
  · rintro ⟨stem, split, -⟩
    exact ⟨stem, by rw [split, String.toList_append]; rfl⟩

/-! ## The known extensions -/

/-- The extensions of the files that are listed by default. -/
def knownExtensions : List String := primaryExtensions ++ secondaryExtensions

theorem stopless_of_mem_knownExtensions :
    ∀ extension ∈ knownExtensions, '.' ∉ extension.toList := by decide +kernel

/-- Every known extension is written in lower case, and has a label. -/
theorem exists_label (known : extension ∈ knownExtensions) :
    Text.lower extension = extension ∧
      ∃ label, extensionLabels.lookup extension = some label ∧ label ≠ "" := by
  have table : ∀ extension ∈ knownExtensions, Text.lower extension = extension ∧
      ∃ label ∈ extensionLabels.map (·.2),
        extensionLabels.lookup extension = some label ∧ label ≠ "" := by decide +kernel
  obtain ⟨lower_eq, label, -, found⟩ := table extension known
  exact ⟨lower_eq, label, found⟩

/-- Only known extensions have a label. -/
theorem mem_of_label (found : extensionLabels.lookup extension = some label) :
    extension ∈ knownExtensions := by
  have table : ∀ entry ∈ extensionLabels, entry.1 ∈ knownExtensions := by decide +kernel
  obtain ⟨before, behind, entries, -⟩ := List.lookup_eq_some_iff.mp found
  exact table (extension, label) (by simp [entries])

/-! ## Groups of endings -/

theorem any_ending_iff {extensions : List String} (known : extensions ⊆ knownExtensions) :
    ((extensions.map ("." ++ ·)).any fun ending => ending.toList.isSuffixOf filename.toList) = true ↔
      ∃ extension ∈ extensions, HasExtension filename extension := by
  rw [List.any_map, List.any_eq_true]
  refine exists_congr fun extension => and_congr_right fun mem => ?_
  exact isSuffixOf_iff_hasExtension (stopless_of_mem_knownExtensions extension (known mem))

/-- The group by which a file is listed by default is a matter of its extension alone. -/
theorem extensionGroup?_default (filename : String) :
    extensionGroup? ({} : Scope).extensionGroups filename =
      if ∃ extension ∈ primaryExtensions, HasExtension filename extension then some 0
      else if ∃ extension ∈ secondaryExtensions, HasExtension filename extension then some 1
      else none := by
  have primary := @any_ending_iff filename primaryExtensions (List.subset_append_left _ _)
  have secondary := @any_ending_iff filename secondaryExtensions (List.subset_append_right _ _)
  rw [extensionGroup?, List.findIdx?_cons, List.findIdx?_cons, List.findIdx?_nil]
  simp only [primary, secondary]
  split
  · rfl
  · split <;> rfl

/-- No file has extensions of both groups. -/
theorem not_primary_and_secondary :
    ¬((∃ extension ∈ primaryExtensions, HasExtension filename extension) ∧
      ∃ extension ∈ secondaryExtensions, HasExtension filename extension) := by
  rintro ⟨⟨extension, primary, has⟩, other, secondary, has_other⟩
  rw [has.unique has_other] at secondary
  have apart : ∀ extension ∈ primaryExtensions, extension ∉ secondaryExtensions := by
    decide +kernel
  exact apart extension primary secondary

theorem extensionGroup?_eq_zero_iff :
    extensionGroup? ({} : Scope).extensionGroups filename = some 0 ↔
      ∃ extension ∈ primaryExtensions, HasExtension filename extension := by
  rw [extensionGroup?_default]
  split
  · simp [*]
  · split <;> simp [*]

theorem extensionGroup?_eq_one_iff :
    extensionGroup? ({} : Scope).extensionGroups filename = some 1 ↔
      ∃ extension ∈ secondaryExtensions, HasExtension filename extension := by
  have apart := @not_primary_and_secondary filename
  rw [extensionGroup?_default]
  split
  · rename_i primary
    simpa using fun secondary => apart ⟨primary, secondary⟩
  · split <;> simp [*]

theorem extensionGroup?_eq_none_iff :
    extensionGroup? ({} : Scope).extensionGroups filename = none ↔
      ∀ extension ∈ knownExtensions, ¬HasExtension filename extension := by
  have either : (∀ extension ∈ knownExtensions, ¬HasExtension filename extension) ↔
      (¬∃ extension ∈ primaryExtensions, HasExtension filename extension) ∧
        ¬∃ extension ∈ secondaryExtensions, HasExtension filename extension := by
    rw [knownExtensions, List.forall_mem_append]
    simp
  rw [extensionGroup?_default, either]
  split
  · simp [*]
  · split <;> simp [*]

/-! ## Labels -/

/-- The label of a file is that of its extension in lower case. -/
theorem detectLanguage_of_hasExtension (has : HasExtension filename extension) :
    detectLanguage filename = (extensionLabels.lookup (Text.lower extension)).getD "" := by
  rw [detectLanguage, extension?_eq_some_iff.mpr has]
  rfl

/-- Keys that are equal to the same entries of a table are looked up alike. -/
theorem lookup_congr {table : List (String × String)} {key other : String}
    (same : ∀ entry ∈ table, key = entry.1 ↔ other = entry.1) :
    table.lookup key = table.lookup other := by
  induction table with
  | nil => rfl
  | cons entry table ih =>
    obtain ⟨first, others⟩ := List.forall_mem_cons.mp same
    have tests : (key == entry.1) = (other == entry.1) := by
      rw [Bool.eq_iff_iff, beq_iff_eq, beq_iff_eq, first]
    rw [List.lookup_cons, List.lookup_cons, tests, ih others]

/-- Whatever the lower case of the extension is beyond ASCII, the label is the same. -/
theorem detectLanguage_of_isLowerCase {lowered : List Char} (has : HasExtension filename extension)
    (is_lower : Text.IsLowerCase extension.toList lowered) :
    detectLanguage filename = (extensionLabels.lookup (String.ofList lowered)).getD "" := by
  have is_ascii : ∀ entry ∈ extensionLabels, ∀ c ∈ entry.1.toList, c.toNat < 128 := by
    decide +kernel
  rw [detectLanguage_of_hasExtension has, lookup_congr fun entry mem => ?_]
  rw [Text.lower, ← String.toList_inj, ← String.toList_inj, String.toList_ofList,
    String.toList_ofList, is_lower.eq_iff (is_ascii entry mem)]

/-- A file with a known extension has the label of it. -/
theorem detectLanguage_of_lookup (has : HasExtension filename extension)
    (found : extensionLabels.lookup extension = some label) : detectLanguage filename = label := by
  rw [detectLanguage_of_hasExtension has, (exists_label (mem_of_label found)).1, found]
  rfl

/-- A file with a label and no known extension has an extension that lower case changes. -/
theorem lowered_ne_of_label (named : detectLanguage filename ≠ "")
    (unknown : ∀ extension ∈ knownExtensions, ¬HasExtension filename extension) :
    ∃ extension, HasExtension filename extension ∧ Text.lower extension ≠ extension ∧
      ∀ lowered, Text.IsLowerCase extension.toList lowered → lowered ≠ extension.toList := by
  suffices changed : ∃ extension, HasExtension filename extension ∧
      ∀ lowered, Text.IsLowerCase extension.toList lowered → lowered ≠ extension.toList by
    obtain ⟨extension, has, changes⟩ := changed
    refine ⟨extension, has, fun same => ?_, changes⟩
    refine changes _ (Text.isLowerCase_map_lowerAscii extension.toList) ?_
    rw [← String.toList_ofList (l := extension.toList.map Text.lowerAscii)]
    exact congrArg String.toList same
  cases behind : extension? filename.toList with
  | none =>
    rw [detectLanguage, behind] at named
    exact absurd rfl named
  | some extension =>
    have has : HasExtension filename (String.ofList extension) :=
      extension?_eq_some_iff.mp (by rw [behind, String.toList_ofList])
    refine ⟨String.ofList extension, has, ?_⟩
    -- if lower case changed nothing, the label would be that of a known extension
    rintro lowered is_lower rfl
    rw [detectLanguage_of_isLowerCase has is_lower, String.ofList_toList] at named
    cases found : extensionLabels.lookup (String.ofList extension) with
    | none =>
      rw [found] at named
      exact named rfl
    | some label => exact unknown _ (mem_of_label found) has

/-! ## Agreement -/

/-- How a scan with the default groups and the report see the name of a file: its group is a matter
of the extension, a listed file has the label of its extension under every path, and a file that
has a label without being listed has an extension that lower case changes. -/
structure ExtensionsAgree (filename : String) : Prop where
  primary : extensionGroup? ({} : Scope).extensionGroups filename = some 0 ↔
    ∃ extension ∈ primaryExtensions, HasExtension filename extension
  secondary : extensionGroup? ({} : Scope).extensionGroups filename = some 1 ↔
    ∃ extension ∈ secondaryExtensions, HasExtension filename extension
  neither : extensionGroup? ({} : Scope).extensionGroups filename = none ↔
    ∀ extension ∈ primaryExtensions ++ secondaryExtensions, ¬HasExtension filename extension
  labelled : extensionGroup? ({} : Scope).extensionGroups filename ≠ none →
    ∃ extension label, HasExtension filename extension ∧
      extensionLabels.lookup extension = some label ∧ label ≠ "" ∧
      detectLanguage filename = label ∧
      ∀ folder, detectLanguage (folder ++ "/" ++ filename) = label
  unlisted : extensionGroup? ({} : Scope).extensionGroups filename = none →
    detectLanguage filename ≠ "" → ∃ extension, HasExtension filename extension ∧
      Text.lower extension ≠ extension ∧
      ∀ lowered, Text.IsLowerCase extension.toList lowered → lowered ≠ extension.toList

/-- A file with a group has a known extension. -/
theorem exists_known_of_extensionGroup?
    (listed : extensionGroup? ({} : Scope).extensionGroups filename ≠ none) :
    ∃ extension ∈ knownExtensions, HasExtension filename extension := by
  by_contra unknown
  exact listed (extensionGroup?_eq_none_iff.mpr fun extension known has =>
    unknown ⟨extension, known, has⟩)

theorem extensionsAgree (filename : String) : ExtensionsAgree filename where
  primary := extensionGroup?_eq_zero_iff
  secondary := extensionGroup?_eq_one_iff
  neither := extensionGroup?_eq_none_iff
  labelled listed := by
    obtain ⟨extension, known, has⟩ := exists_known_of_extensionGroup? listed
    obtain ⟨-, label, found, nonempty⟩ := exists_label known
    refine ⟨extension, label, has, found, nonempty, detectLanguage_of_lookup has found, ?_⟩
    intro folder
    have ends : filename.toList <:+ (folder ++ "/" ++ filename).toList := by
      rw [String.toList_append]
      exact List.suffix_append _ _
    exact detectLanguage_of_lookup (has.of_suffix ends) found
  unlisted unlisted named :=
    lowered_ne_of_label named (extensionGroup?_eq_none_iff.mp unlisted)

/-- The paths of files that a scan with the default groups finds have labels. -/
theorem detectLanguage_ne_empty_of_mem_found {system : FileSystem} {scope : Scope} {root : String}
    {context : IgnoreContext} {listing : Scan}
    (default : scope.extensionGroups = ({} : Scope).extensionGroups)
    (scanned : scan system scope root context = .ok listing) {path : String}
    (found : path ∈ listing.found) : detectLanguage path ≠ "" := by
  rw [scan] at scanned
  split at scanned
  · cases scanned
  · obtain rfl := Except.ok.inj scanned
    cases isFolder : system.entries? root with
    | none =>
      simp only [isFolder] at found
      cases found
    | some directory =>
      simp only [isFolder] at found
      rw [mem_map_path_sourcesOf (FileSystem.isProper_of_entries? isFolder)] at found
      obtain ⟨folders, name, rfl, eligible, -⟩ := found
      obtain ⟨group, -, grouped⟩ := exists_extensionGroup?_iff.mpr eligible.hasEnding
      have listed : extensionGroup? ({} : Scope).extensionGroups name ≠ none := by
        rw [← default, grouped]
        exact Option.some_ne_none group
      -- the group that lists the file has an ending that is a known extension
      obtain ⟨extension, known, has⟩ := exists_known_of_extensionGroup? listed
      obtain ⟨-, label, found, nonempty⟩ := exists_label known
      have ends := Path.suffix_ofComponents folders name
      rwa [detectLanguage_of_lookup (has.of_suffix ends) found]

/-- A scan with the default groups and the report agree on the name of every file, so that every
file which is listed has a label. -/
theorem scan_and_labels_agree :
    (∀ filename, ExtensionsAgree filename) ∧
    ∀ system scope root context listing,
      scope.extensionGroups = ({} : Scope).extensionGroups →
        scan system scope root context = .ok listing →
          ∀ path ∈ listing.files, detectLanguage path ≠ "" := by
  refine ⟨extensionsAgree, fun system scope root context listing default scanned path mem => ?_⟩
  have found : path ∈ listing.found := (takeUpTo_isPrefix _ _).subset mem
  exact detectLanguage_ne_empty_of_mem_found default scanned found

/-- The nested codebase, a name with two full stops, and one in which the Kelvin sign stands for a
letter. -/
theorem scan_and_labels_agree_kelvin :
    ("sub/a.rb" ∈ Scan.files { found := ["sub/a.rb"], limit := 50 } ∧
      detectLanguage "sub/a.rb" ≠ "") ∧
    (extensionGroup? ({} : Scope).extensionGroups "a.html.erb" ≠ none ∧
      detectLanguage ("a.d" ++ "/" ++ "a.html.erb") = "erb") ∧
    (extensionGroup? ({} : Scope).extensionGroups "a.ra\u212Ae" = none ∧
      detectLanguage "a.ra\u212Ae" ≠ "" ∧
      Text.lower "ra\u212Ae" ≠ "ra\u212Ae" ∧
      Text.IsLowerCase "ra\u212Ae".toList "rake".toList ∧
      "rake".toList ≠ "ra\u212Ae".toList) := by
  obtain ⟨agree, scanned⟩ := scan_and_labels_agree
  have listing : scan nestedSystem {} "repo" { root := "repo" } =
      .ok { found := ["sub/a.rb"], limit := 50 } := by decide +kernel
  have listed : "sub/a.rb" ∈ Scan.files { found := ["sub/a.rb"], limit := 50 } := by decide
  have template : extensionGroup? ({} : Scope).extensionGroups "a.html.erb" ≠ none := by
    decide +kernel
  have unlisted : extensionGroup? ({} : Scope).extensionGroups "a.ra\u212Ae" = none := by
    decide +kernel
  have named : detectLanguage "a.ra\u212Ae" ≠ "" := by decide +kernel
  obtain ⟨extension, label, has, found, -, -, paths⟩ := (agree "a.html.erb").labelled template
  obtain rfl := (show HasExtension "a.html.erb" "erb" by decide +kernel).unique has
  obtain rfl : "erb" = label := Option.some_inj.mp found
  obtain ⟨kelvin, has_kelvin, changed, changes⟩ :=
    (agree "a.ra\u212Ae").unlisted unlisted named
  obtain rfl := (show HasExtension "a.ra\u212Ae" "ra\u212Ae" by decide +kernel).unique has_kelvin
  have is_lower := Text.isLowerCase_map_lowerAscii "ra\u212Ae".toList
  exact ⟨⟨listed, scanned nestedSystem {} "repo" { root := "repo" } _ rfl listing _ listed⟩,
    ⟨template, paths "a.d"⟩, ⟨unlisted, named, changed, is_lower, changes _ is_lower⟩⟩

end TraceInquest
