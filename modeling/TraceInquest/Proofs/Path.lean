import TraceInquest.Path
import TraceInquest.Proofs.Text.Lines

/-! # Names and the paths they make

* **`components_ofComponents`** — names without slashes are the components of the path they make.
* **`ofComponents_inj`** — such a path comes from one list of names only.
* **`slashes count`** — some slashes, each of which ends an empty component.
* **`join_empty`**, **`join_of_ne_empty`** — the path that joining makes.
* **`join_assoc`** — paths joined one behind the other.
* **`namingComponents_join`**, **`foldl_stepInto`** — the components that name something.
* **`relative?_join`** — the way from a path to what lies below it. -/

namespace TraceInquest.Path

/-- Every path has a component, which may be empty. -/
theorem components_ne_nil (path : String) : components path ≠ [] := by
  have cut := (@Text.cutLines_append_after (· == '/') [[]] (by simp) [] path.toList).1
  rw [components]
  simpa using cut

/-- The components of one name are the name alone. -/
theorem components_of_not_mem {name : String} (slashless : '/' ∉ name.toList) :
    components name = [name] := by
  have kept := Text.beq_eq_false_of_not_mem slashless
  rw [components, Text.cutLines_of_unbroken kept, List.append_nil, List.map_singleton,
    String.ofList_toList]

/-- The components in front of a slash come before those behind it. -/
theorem components_append_slash_append (front rest : String) :
    components (front ++ "/" ++ rest) = components front ++ components rest := by
  rw [components, String.toList_append, String.toList_append, List.append_assoc,
    show "/".toList = ['/'] from rfl, List.singleton_append, Text.cutLines_append_cons rfl,
    List.map_append]
  rfl

/-- A name in front of a slash is the first component. -/
theorem components_append_slash {name : String} (slashless : '/' ∉ name.toList)
    (rest : String) : components (name ++ "/" ++ rest) = name :: components rest := by
  rw [components_append_slash_append, components_of_not_mem slashless]
  rfl

/-- Names without slashes are the components of the path they make. -/
theorem components_ofComponents {names : List String} (nonempty : names ≠ [])
    (slashless : ∀ name ∈ names, '/' ∉ name.toList) :
    components (ofComponents names) = names := by
  induction names with
  | nil => exact absurd rfl nonempty
  | cons name names ih =>
    have name_slashless := slashless name List.mem_cons_self
    have names_slashless : ∀ other ∈ names, '/' ∉ other.toList :=
      fun other mem => slashless other (List.mem_cons_of_mem name mem)
    by_cases last : names = []
    · subst last
      rw [ofComponents, String.intercalate_singleton]
      exact components_of_not_mem name_slashless
    · rw [ofComponents, String.intercalate_cons_of_ne_nil last,
        components_append_slash name_slashless]
      exact congrArg (name :: ·) (ih last names_slashless)

/-- A path that names without slashes make comes from one list of names only. -/
theorem ofComponents_inj {first second : List String} (first_nonempty : first ≠ [])
    (second_nonempty : second ≠ []) (first_slashless : ∀ name ∈ first, '/' ∉ name.toList)
    (second_slashless : ∀ name ∈ second, '/' ∉ name.toList) :
    ofComponents first = ofComponents second ↔ first = second := by
  constructor
  · intro same
    rw [← components_ofComponents first_nonempty first_slashless, same,
      components_ofComponents second_nonempty second_slashless]
  · rintro rfl
    rfl

/-- No component of a path holds a slash. -/
theorem not_mem_of_mem_components {path part : String} (mem : part ∈ components path) :
    '/' ∉ part.toList := by
  obtain ⟨piece, cut, rfl⟩ := List.mem_map.mp mem
  rw [String.toList_ofList]
  intro slash
  have kept := @Text.not_isBreak_of_mem_cutLines (· == '/') [[]] (by simp) _ piece cut '/' slash
  simp at kept

/-- The characters of a component are characters of the path. -/
theorem mem_of_mem_components {path part : String} (mem : part ∈ components path) {c : Char}
    (c_mem : c ∈ part.toList) : c ∈ path.toList := by
  obtain ⟨piece, cut, rfl⟩ := List.mem_map.mp mem
  rw [String.toList_ofList] at c_mem
  exact Text.mem_of_mem_cutLines cut c_mem

/-- A path that starts with a slash starts with an empty component. -/
theorem components_of_isAbsolute {path : String} (absolute : isAbsolute path = true) :
    ∃ rest, components path = "" :: rest := by
  rw [isAbsolute, beq_iff_eq] at absolute
  obtain ⟨chars, path_eq⟩ := List.head?_eq_some_iff.mp absolute
  rw [components, path_eq, Text.cutLines_cons]
  exact ⟨_, rfl⟩

theorem isAbsolute_slash_append (rest : String) : isAbsolute ("/" ++ rest) = true := by
  rw [isAbsolute, String.toList_append]
  rfl

theorem components_slash_append (rest : String) : components ("/" ++ rest) = "" :: components rest :=
  @components_append_slash "" (by simp) rest

/-- The characters of components are those of the path they make. -/
theorem mem_toList_ofComponents {parts : List String} {part : String} (mem : part ∈ parts)
    {c : Char} (c_mem : c ∈ part.toList) : c ∈ (ofComponents parts).toList := by
  induction parts with
  | nil => cases mem
  | cons first parts ih =>
    by_cases last : parts = []
    · subst last
      rw [List.mem_singleton] at mem
      rwa [ofComponents, String.intercalate_singleton, ← mem]
    · rw [ofComponents, String.intercalate_cons_of_ne_nil last, String.toList_append,
        String.toList_append]
      rcases List.mem_cons.mp mem with rfl | later
      · exact List.mem_append_left _ (List.mem_append_left _ c_mem)
      · exact List.mem_append_right _ (ih later)

/-- The characters of the path that components make are theirs, or slashes. -/
theorem eq_or_mem_of_mem_ofComponents {parts : List String} {c : Char}
    (mem : c ∈ (ofComponents parts).toList) : c = '/' ∨ ∃ part ∈ parts, c ∈ part.toList := by
  refine (Text.mem_of_mem_intercalate mem).imp_left fun between => ?_
  simpa using between

/-- The path that components make ends with the last of them. -/
theorem suffix_ofComponents (folders : List String) (name : String) :
    name.toList <:+ (ofComponents (folders ++ [name])).toList := by
  induction folders with
  | nil =>
    exact ⟨[], by rw [List.nil_append, List.nil_append, ofComponents, String.intercalate_singleton]⟩
  | cons first folders ih =>
    rw [List.cons_append, ofComponents, String.intercalate_cons_of_ne_nil (by simp),
      String.toList_append]
    exact ih.trans (List.suffix_append _ _)

/-! ## Slashes -/

/-- Some slashes one after the other. -/
def slashes : Nat → String
  | 0 => ""
  | count + 1 => "/" ++ slashes count

@[simp] theorem utf8ByteSize_slashes (count : Nat) : (slashes count).utf8ByteSize = count := by
  induction count with
  | zero => rfl
  | succ count ih =>
    rw [slashes, String.utf8ByteSize_append, ih, show "/".utf8ByteSize = 1 from rfl]
    omega

theorem eq_of_mem_slashes {count : Nat} {c : Char} (mem : c ∈ (slashes count).toList) :
    c = '/' := by
  induction count with
  | zero => simp [slashes] at mem
  | succ count ih =>
    rw [slashes, String.toList_append, show "/".toList = ['/'] from rfl] at mem
    rcases List.mem_cons.mp mem with rfl | later
    · rfl
    · exact ih later

/-- Each slash behind a name ends a component and leaves an empty one behind it. -/
theorem components_append_slashes {name : String} (slashless : '/' ∉ name.toList)
    (count : Nat) : components (name ++ slashes count) = name :: List.replicate count "" := by
  induction count generalizing name with
  | zero => rw [slashes, String.append_empty, components_of_not_mem slashless]; rfl
  | succ count ih =>
    have behind := @ih "" (by simp)
    rw [String.empty_append] at behind
    rw [slashes, ← String.append_assoc, components_append_slash slashless, behind]
    rfl

/-! ## Joining -/

/-- A name without slashes does not start at the root of the file system. -/
theorem isAbsolute_of_not_mem {name : String} (slashless : '/' ∉ name.toList) :
    isAbsolute name = false := by
  rw [isAbsolute, beq_eq_false_iff_ne]
  exact fun first => slashless (List.mem_of_head? first)

/-- Behind the empty path a relative path stays as it is. -/
theorem join_empty {path : String} (relative : isAbsolute path = false) : join "" path = path := by
  simp [join, relative]

/-- Behind another path a relative path comes after a slash, which the other path may end with. -/
theorem join_of_ne_empty {base path : String} (relative : isAbsolute path = false)
    (nonempty : base ≠ "") :
    (∃ front, base = front ++ "/" ∧ join base path = front ++ "/" ++ path) ∨
      join base path = base ++ "/" ++ path := by
  by_cases slash : base.toList.getLast? = some '/'
  · obtain ⟨front, front_eq⟩ := List.getLast?_eq_some_iff.mp slash
    have base_eq : base = String.ofList front ++ "/" := by
      apply String.toList_inj.mp
      rw [front_eq, String.toList_append, String.toList_ofList]
      rfl
    refine .inl ⟨String.ofList front, base_eq, ?_⟩
    rw [← base_eq]
    simp [join, relative, slash]
  · refine .inr ?_
    simp [join, relative, slash, nonempty]

/-- Joining shortens nothing. -/
theorem utf8ByteSize_le_join {base path : String} (relative : isAbsolute path = false) :
    base.utf8ByteSize + path.utf8ByteSize ≤ (join base path).utf8ByteSize := by
  rw [join, if_neg (by simp [relative])]
  split
  · exact Nat.le_of_eq String.utf8ByteSize_append.symm
  · rw [String.utf8ByteSize_append, String.utf8ByteSize_append]
    omega

/-- Behind the same path different relative paths make different paths. -/
theorem join_inj {base first second : String} (first_relative : isAbsolute first = false)
    (second_relative : isAbsolute second = false) :
    join base first = join base second ↔ first = second := by
  constructor
  · intro same
    simp only [join, first_relative, second_relative, Bool.false_eq_true, if_false] at same
    split at same
    · exact (String.append_right_inj base).mp same
    · exact (String.append_right_inj (base ++ "/")).mp same
  · rintro rfl
    rfl

/-- The characters of a joined path are those of its parts, or slashes. -/
theorem eq_or_mem_of_mem_join {base path : String} {c : Char} (mem : c ∈ (join base path).toList) :
    c = '/' ∨ c ∈ base.toList ∨ c ∈ path.toList := by
  rw [join] at mem
  split at mem
  · exact .inr (.inr mem)
  · split at mem
    · rw [String.toList_append] at mem
      exact .inr (List.mem_append.mp mem)
    · rw [String.toList_append, String.toList_append, show "/".toList = ['/'] from rfl] at mem
      rcases List.mem_append.mp mem with front | behind
      · rcases List.mem_append.mp front with of_base | slash
        · exact .inr (.inl of_base)
        · exact .inl (List.mem_singleton.mp slash)
      · exact .inr (.inr behind)

theorem join_ne_empty {base path : String} (relative : isAbsolute path = false)
    (named : base ≠ "") : join base path ≠ "" := by
  intro empty
  have size := @utf8ByteSize_le_join base path relative
  rw [empty] at size
  exact named (by simpa using Nat.le_zero.mp (Nat.le_of_add_right_le size))

/-! ## Components that name something -/

theorem namingComponents_of_not_mem {name : String} (slashless : '/' ∉ name.toList) :
    namingComponents name = if name = "" ∨ name = "." then [] else [name] := by
  rw [namingComponents, components_of_not_mem slashless, List.filter_cons, List.filter_nil]
  by_cases empty : name = ""
  · simp [empty]
  · by_cases dot : name = "." <;> simp [empty, dot]

theorem namingComponents_of_ne {name : String} (not_empty : name ≠ "") (not_dot : name ≠ ".")
    (slashless : '/' ∉ name.toList) : namingComponents name = [name] := by
  rw [namingComponents_of_not_mem slashless, if_neg (by simp [not_empty, not_dot])]

/-- A name is the only component of itself, if it has one at all. -/
theorem eq_of_prefix_namingComponents {name : String} (slashless : '/' ∉ name.toList)
    {above : List String} (initial : above <+: namingComponents name) (nonempty : above ≠ []) :
    name ≠ "" ∧ above = [name] := by
  rw [namingComponents_of_not_mem slashless] at initial
  split at initial
  · exact absurd (List.prefix_nil.mp initial) nonempty
  · rename_i not_dot
    rcases List.prefix_cons_iff.mp initial with none | ⟨tail, rfl, last⟩
    · exact absurd none nonempty
    · exact ⟨fun empty => not_dot (.inl empty), congrArg (name :: ·) (List.prefix_nil.mp last)⟩

/-- Names that are no dots are the components of the path they make. -/
theorem namingComponents_ofComponents {names : List String} (nonempty : names ≠ [])
    (plain : ∀ name ∈ names, name ≠ "" ∧ name ≠ "." ∧ '/' ∉ name.toList) :
    namingComponents (ofComponents names) = names := by
  rw [namingComponents,
    components_ofComponents nonempty fun name mem => (plain name mem).2.2, List.filter_eq_self]
  intro name mem
  simp [(plain name mem).1, (plain name mem).2.1]

/-- The components of a relative path come behind those of the path it is joined with. -/
theorem namingComponents_join {base path : String} (relative : isAbsolute path = false) :
    namingComponents (join base path) = namingComponents base ++ namingComponents path := by
  by_cases empty : base = ""
  · subst empty
    rw [join_empty relative]
    rfl
  · rcases join_of_ne_empty relative empty with ⟨front, rfl, join_eq⟩ | join_eq
    · -- the slash at the end of the base leaves an empty component, which names nothing
      have base_components : components (front ++ "/") = components front ++ [""] := by
        rw [← String.append_empty (s := front ++ "/"), components_append_slash_append]
        rfl
      rw [join_eq, namingComponents, namingComponents, components_append_slash_append,
        base_components, List.filter_append, List.filter_append, List.append_assoc]
      rfl
    · rw [join_eq, namingComponents, components_append_slash_append, List.filter_append]
      rfl

/-- Where nothing leads upwards, components are put one behind the other. -/
theorem foldl_stepInto {names : List String} (downwards : ".." ∉ names) (here : List String) :
    names.foldl stepInto here = here ++ names := by
  induction names generalizing here with
  | nil => rw [List.foldl_nil, List.append_nil]
  | cons name names ih =>
    obtain ⟨other, downwards⟩ := List.ne_and_not_mem_of_not_mem_cons downwards
    rw [List.foldl_cons, stepInto, if_neg (Ne.symm other), ih downwards, List.append_assoc]
    rfl

/-! ## The way from one path to another -/

/-- A path with more behind it starts where it starts itself. -/
theorem isAbsolute_append {path : String} (nonempty : path ≠ "") (rest : String) :
    isAbsolute (path ++ rest) = isAbsolute path := by
  obtain ⟨c, chars, path_eq⟩ :=
    List.exists_cons_of_ne_nil (by simpa using nonempty : path.toList ≠ [])
  rw [isAbsolute, isAbsolute, String.toList_append, path_eq]
  rfl

theorem isAbsolute_join {base path : String} (relative : isAbsolute path = false)
    (named : base ≠ "") : isAbsolute (join base path) = isAbsolute base := by
  rcases join_of_ne_empty relative named with ⟨front, base_eq, join_eq⟩ | join_eq
  · rw [join_eq, ← base_eq, isAbsolute_append named]
  · rw [join_eq, String.append_assoc, isAbsolute_append named]

/-- What comes between a path and a relative path that is joined with it. -/
def separator (base : String) : String :=
  if base.isEmpty || base.toList.getLast? == some '/' then "" else "/"

theorem join_of_relative {base path : String} (relative : isAbsolute path = false) :
    join base path = base ++ separator base ++ path := by
  rw [join, if_neg (by simp [relative]), separator]
  split
  · rw [String.append_empty]
  · rfl

theorem join_of_isAbsolute {base path : String} (absolute : isAbsolute path = true) :
    join base path = path := by
  rw [join, if_pos absolute]

/-- The end of a path decides what comes behind it. -/
theorem separator_append {path : String} (nonempty : path ≠ "") (front : String) :
    separator (front ++ path) = separator path := by
  have last : (front ++ path).toList.getLast? = path.toList.getLast? := by
    obtain ⟨chars, c, path_eq⟩ :=
      (List.eq_nil_or_concat path.toList).resolve_left (by simpa using nonempty)
    rw [String.toList_append, path_eq, List.concat_eq_append, ← List.append_assoc,
      List.getLast?_concat, List.getLast?_concat]
  rw [separator, separator, last]
  simp [nonempty]

/-- No slash comes behind a slash. -/
theorem separator_append_separator (base : String) : separator (base ++ separator base) = "" := by
  by_cases closed : base.isEmpty || base.toList.getLast? == some '/'
  · have nothing : separator base = "" := if_pos closed
    rw [nothing, String.append_empty, nothing]
  · have slash : separator base = "/" := if_neg closed
    rw [slash, separator_append (by decide)]
    rfl

/-- Paths are joined in any order. -/
theorem join_assoc (base middle path : String) :
    join (join base middle) path = join base (join middle path) := by
  cases absolute : isAbsolute path with
  | true => rw [join_of_isAbsolute absolute, join_of_isAbsolute absolute,
      join_of_isAbsolute absolute]
  | false =>
    by_cases empty : middle = ""
    · subst empty
      rw [join_empty absolute, join_of_relative absolute, join_of_relative absolute,
        join_of_relative (by decide), String.append_empty, separator_append_separator,
        String.append_empty]
    · have starts : isAbsolute (join middle path) = isAbsolute middle :=
        isAbsolute_join absolute empty
      cases middle_absolute : isAbsolute middle with
      | true => rw [join_of_isAbsolute middle_absolute,
          join_of_isAbsolute (starts.trans middle_absolute)]
      | false =>
        rw [join_of_relative (starts.trans middle_absolute), join_of_relative absolute,
          join_of_relative absolute, join_of_relative middle_absolute, separator_append empty]
        simp only [String.append_assoc]

/-- A list shares with a longer one that starts with it all that it has. -/
theorem sharedLength_append (shared rest : List String) :
    sharedLength shared (shared ++ rest) = shared.length := by
  induction shared with
  | nil => rfl
  | cons name shared ih =>
    rw [List.cons_append, sharedLength, if_pos rfl, ih]
    rfl

/-- The way between paths of which one has names behind the components of the other. -/
theorem relative?_of_absolute {working names : List String} {path base : String}
    (nonempty : path ≠ "") (goal : absolute working path = absolute working base ++ names) :
    relative? working path base = some (if names.isEmpty then "." else ofComponents names) := by
  simp [relative?, goal, sharedLength_append, nonempty]

/-- The way from a path to what lies below it goes through the names behind it, however the path
is spelled. -/
theorem relative?_join {working names : List String} {base : String} (named : base ≠ "")
    (nonempty : names ≠ [])
    (plain : ∀ name ∈ names, name ≠ "" ∧ name ≠ "." ∧ '/' ∉ name.toList)
    (downwards : ".." ∉ names) (relative : isAbsolute (ofComponents names) = false) :
    relative? working (join base (ofComponents names)) base = some (ofComponents names) := by
  have goal : absolute working (join base (ofComponents names)) =
      absolute working base ++ names := by
    rw [absolute, absolute, namingComponents_join relative, isAbsolute_join relative named,
      List.foldl_append, namingComponents_ofComponents nonempty plain, foldl_stepInto downwards]
  rw [relative?_of_absolute (join_ne_empty relative named) goal, if_neg (by simpa using nonempty)]

/-- A path with names joined behind it one by one has them behind its components. -/
theorem absolute_foldl_join {working names : List String} {base : String} (named : base ≠ "")
    (plain : ∀ name ∈ names, name ≠ "" ∧ name ≠ "." ∧ name ≠ ".." ∧ '/' ∉ name.toList) :
    names.foldl join base ≠ "" ∧
      absolute working (names.foldl join base) = absolute working base ++ names := by
  induction names generalizing base with
  | nil => exact ⟨named, (List.append_nil _).symm⟩
  | cons name names ih =>
    obtain ⟨⟨not_empty, not_dot, not_dots, slashless⟩, later⟩ := List.forall_mem_cons.mp plain
    have relative := isAbsolute_of_not_mem slashless
    have parts := namingComponents_of_ne not_empty not_dot slashless
    have one : absolute working (join base name) = absolute working base ++ [name] := by
      rw [absolute, absolute, namingComponents_join relative, isAbsolute_join relative named,
        List.foldl_append, parts, List.foldl_cons, stepInto, if_neg not_dots]
      rfl
    obtain ⟨nonempty, goal⟩ := ih (join_ne_empty relative named) later
    refine ⟨nonempty, ?_⟩
    rw [List.foldl_cons, goal, one, List.append_assoc]
    rfl

end TraceInquest.Path
