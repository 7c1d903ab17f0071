import TraceInquest.Proofs.Source.Names

/-! # The nearest declaration

The function around a line is the one that the nearest line at or above it declares. Nothing else
matters: neither the lines below, nor how many lines without declarations stand in between, nor the
blanks around any line.

* **`nearest?`** — what the nearest of the first lines declares; **`nearest?_succ`** adds a line and
  **`nearest?_append`** puts files together.
* **`IsNearestDeclaration`** — the declaration that is nearest to a line.
* **`containingFunction_eq_unknown_iff`** — where the function around a line is unknown.
* **`containingFunction_congr`**, **`GainsQuietLines.containingFunction_eq`** — what does not matter.
* **`containingFunction_nearest`** — all of it together. -/

namespace TraceInquest

variable {lines : List String} {target : Int} {name : String}

/-! ## Declarations by index -/

/-- What the line with an index declares, if there is such a line. -/
def declaredAt? (lines : List String) (index : Nat) : Option String :=
  lines[index]?.bind fun line => matchDeclaration? line.toList

/-- What the nearest of the first lines of a file declares. -/
def nearest? (lines : List String) (count : Nat) : Option String :=
  (lines.take count).reverse.findSome? fun line => matchDeclaration? line.toList

theorem containingFunction_eq_nearest? (lines : List String) (target : Int) :
    containingFunction lines target = (nearest? lines (target + 1).toNat).getD unknownFunction :=
  rfl

/-- One more line decides if it declares something. -/
theorem nearest?_succ (lines : List String) (count : Nat) :
    nearest? lines (count + 1) = (declaredAt? lines count).or (nearest? lines count) := by
  rw [nearest?, List.take_add_one, List.reverse_append, List.findSome?_append, declaredAt?, nearest?]
  cases lines[count]? with
  | none => rfl
  | some line => simp

/-- The lines of a file count before those of another one in front of it. -/
theorem nearest?_append (front back : List String) (count : Nat) :
    nearest? (front ++ back) (front.length + count) =
      (nearest? back count).or (nearest? front front.length) := by
  rw [nearest?, List.take_length_add_append, List.reverse_append, List.findSome?_append, nearest?,
    nearest?, List.take_length]

theorem nearest?_eq_none_iff {count : Nat} :
    nearest? lines count = none ↔ ∀ index < count, declaredAt? lines index = none := by
  induction count with
  | zero => simp [nearest?]
  | succ count ih =>
    rw [nearest?_succ, Option.or_eq_none_iff, ih, Nat.forall_lt_succ_right, and_comm]

/-- The last line that declares something decides. -/
theorem nearest?_eq_some_iff {count : Nat} :
    nearest? lines count = some name ↔
      ∃ index < count, declaredAt? lines index = some name ∧
        ∀ nearer < count, index < nearer → declaredAt? lines nearer = none := by
  induction count with
  | zero => simp [nearest?]
  | succ count ih =>
    rw [nearest?_succ]
    cases declared : declaredAt? lines count with
    | none =>
      rw [Option.none_or, ih]
      constructor
      · rintro ⟨index, less, found, none_nearer⟩
        refine ⟨index, Nat.lt_succ_of_lt less, found, Nat.forall_lt_succ_right.mpr ⟨none_nearer, ?_⟩⟩
        exact fun _ => declared
      · rintro ⟨index, less, found, none_nearer⟩
        have other : index ≠ count := by
          rintro rfl
          rw [declared] at found
          cases found
        exact ⟨index, by omega, found, fun nearer less => none_nearer nearer (by omega)⟩
    | some other =>
      rw [Option.some_or, Option.some_inj]
      constructor
      · rintro rfl
        exact ⟨count, Nat.lt_succ_self count, declared, fun nearer less above => by omega⟩
      · rintro ⟨index, less, found, none_nearer⟩
        -- the last line declares something, so no line in front of it is the nearest one
        have last : index = count := by
          by_contra differs
          rw [none_nearer count (Nat.lt_succ_self count) (by omega)] at declared
          cases declared
        rw [← last, found] at declared
        exact (Option.some_inj.mp declared).symm

/-- What is found in the first lines of a file is only a matter of what each of them declares. -/
theorem nearest?_congr {edited : List String} {count : Nat}
    (same : ∀ index < count, declaredAt? edited index = declaredAt? lines index) :
    nearest? edited count = nearest? lines count := by
  induction count with
  | zero => rfl
  | succ count ih =>
    rw [nearest?_succ, nearest?_succ, same count (Nat.lt_succ_self count),
      ih fun index less => same index (Nat.lt_succ_of_lt less)]

/-! ## The nearest declaration -/

/-- Whether a line is the nearest one at or above the target that declares something, and what it
declares. -/
structure IsNearestDeclaration (lines : List String) (target : Int) (index : Nat) (name : String) :
    Prop where
  reached : (index : Int) ≤ target
  declares : declaredAt? lines index = some name
  none_nearer : ∀ nearer : Nat, index < nearer → (nearer : Int) ≤ target →
    declaredAt? lines nearer = none

theorem nearest?_eq_some_iff_isNearestDeclaration :
    nearest? lines (target + 1).toNat = some name ↔
      ∃ index, IsNearestDeclaration lines target index name := by
  rw [nearest?_eq_some_iff]
  constructor
  · rintro ⟨index, less, declares, none_nearer⟩
    exact ⟨index, by omega, declares, fun nearer below above => none_nearer nearer (by omega) below⟩
  · rintro ⟨index, nearest⟩
    have reached := nearest.reached
    exact ⟨index, by omega, nearest.declares,
      fun nearer less below => nearest.none_nearer nearer below (by omega)⟩

theorem nearest?_eq_none_iff_undeclared :
    nearest? lines (target + 1).toNat = none ↔
      ∀ index : Nat, (index : Int) ≤ target → declaredAt? lines index = none := by
  rw [nearest?_eq_none_iff]
  refine forall_congr' fun index => ?_
  have reached : index < (target + 1).toNat ↔ (index : Int) ≤ target := by omega
  rw [reached]

/-- The nearest declaration never has the name that stands for an unknown function. -/
theorem IsNearestDeclaration.ne_unknownFunction {index : Nat}
    (nearest : IsNearestDeclaration lines target index name) : name ≠ unknownFunction := by
  obtain ⟨line, -, declared⟩ := Option.bind_eq_some_iff.mp nearest.declares
  exact ne_unknownFunction_of_matchDeclaration? declared

/-- The function around a line is that of the nearest declaration, or unknown if there is none. -/
theorem containingFunction_eq_iff :
    containingFunction lines target = name ↔
      (∃ index, IsNearestDeclaration lines target index name) ∨
        name = unknownFunction ∧
          ∀ index : Nat, (index : Int) ≤ target → declaredAt? lines index = none := by
  rw [← nearest?_eq_some_iff_isNearestDeclaration, ← nearest?_eq_none_iff_undeclared,
    containingFunction_eq_nearest?]
  cases nearest? lines (target + 1).toNat with
  | none => simp [eq_comm]
  | some other => simp

theorem containingFunction_eq_unknown_iff_declaredAt? :
    containingFunction lines target = unknownFunction ↔
      ∀ index : Nat, (index : Int) ≤ target → declaredAt? lines index = none := by
  rw [containingFunction_eq_iff]
  constructor
  · rintro (⟨index, nearest⟩ | ⟨-, undeclared⟩)
    · exact absurd rfl nearest.ne_unknownFunction
    · exact undeclared
  · exact fun undeclared => .inr ⟨rfl, undeclared⟩

theorem containingFunction_eq_unknown_iff :
    containingFunction lines target = unknownFunction ↔
      ∀ line ∈ lines.take (target + 1).toNat, matchDeclaration? line.toList = none := by
  rw [containingFunction_eq_unknown_iff_declaredAt?, ← nearest?_eq_none_iff_undeclared, nearest?,
    List.findSome?_eq_none_iff]
  simp only [List.mem_reverse]

/-! ## What does not matter -/

/-- Files whose lines up to the target declare the same cannot be told apart. -/
theorem containingFunction_congr {edited : List String}
    (same : ∀ index : Nat, (index : Int) ≤ target →
      declaredAt? edited index = declaredAt? lines index) :
    containingFunction edited target = containingFunction lines target := by
  rw [containingFunction_eq_nearest?, containingFunction_eq_nearest?,
    nearest?_congr fun index less => same index (by omega)]

/-- What a line declares is not a matter of the blanks around it. -/
theorem matchDeclaration?_respaced {line other : List Char} (respaced : Text.Respaced line other) :
    matchDeclaration? other = matchDeclaration? line := by
  rw [matchDeclaration?, matchDeclaration?, respaced.strip_eq]

theorem declaredAt?_respaced {respaced : List String}
    (each : List.Forall₂ (fun line other => Text.Respaced line.toList other.toList) lines respaced)
    (index : Nat) : declaredAt? respaced index = declaredAt? lines index := by
  induction each generalizing index with
  | nil => rfl
  | cons first _ ih =>
    cases index with
    | zero => exact matchDeclaration?_respaced first
    | succ index => exact ih index

/-- Whether a file has more lines than another one, which declare nothing, at or above its target,
which moves along with its line. -/
def GainsQuietLines (lines : List String) (target : Int) (longer : List String) (moved : Int) :
    Prop :=
  ∃ front quiet back, lines = front ++ back ∧ longer = front ++ (quiet ++ back) ∧
    (front.length : Int) ≤ target ∧ moved = target + quiet.length ∧
    ∀ line ∈ quiet, matchDeclaration? line.toList = none

theorem GainsQuietLines.containingFunction_eq {longer : List String} {moved : Int}
    (gains : GainsQuietLines lines target longer moved) :
    containingFunction longer moved = containingFunction lines target := by
  obtain ⟨front, quiet, back, rfl, rfl, above, rfl, undeclared⟩ := gains
  obtain ⟨count, target_eq⟩ : ∃ count : Nat, target + 1 = front.length + count :=
    ⟨(target + 1).toNat - front.length, by omega⟩
  have nothing : nearest? quiet quiet.length = none := by
    rw [nearest?, List.findSome?_eq_none_iff, List.take_length]
    exact fun line mem => undeclared line (List.mem_reverse.mp mem)
  have moved_eq : target + quiet.length + 1 = (front.length + (quiet.length + count) : Nat) := by
    omega
  rw [containingFunction_eq_nearest?, containingFunction_eq_nearest?, moved_eq, target_eq,
    ← Int.natCast_add, Int.toNat_natCast, Int.toNat_natCast, nearest?_append, nearest?_append,
    nearest?_append, nothing, Option.or_none]

/-- The function around a line is what the nearest line at or above it declares, unknown if there is
none. It is not changed by edits below the line, by more or fewer lines without declarations above
it, or by blanks around any lines. -/
theorem containingFunction_nearest (lines : List String) (target : Int) :
    (∀ name, containingFunction lines target = name ↔
      (∃ index, IsNearestDeclaration lines target index name) ∨
        name = unknownFunction ∧
          ∀ index : Nat, (index : Int) ≤ target → declaredAt? lines index = none) ∧
    (containingFunction lines target = unknownFunction ↔
      ∀ index : Nat, (index : Int) ≤ target → declaredAt? lines index = none) ∧
    (∀ index, declaredAt? lines index ≠ some unknownFunction) ∧
    (∀ edited : List String,
      (∀ index : Nat, (index : Int) ≤ target → edited[index]? = lines[index]?) →
        containingFunction edited target = containingFunction lines target) ∧
    (∀ other moved,
      GainsQuietLines lines target other moved ∨ GainsQuietLines other moved lines target →
        containingFunction other moved = containingFunction lines target) ∧
    (∀ respaced : List String,
      List.Forall₂ (fun line other => Text.Respaced line.toList other.toList) lines respaced →
        containingFunction respaced target = containingFunction lines target) := by
  refine ⟨fun name => containingFunction_eq_iff, containingFunction_eq_unknown_iff_declaredAt?, ?_,
    ?_, ?_, ?_⟩
  · intro index declared
    obtain ⟨line, -, declared⟩ := Option.bind_eq_some_iff.mp declared
    exact ne_unknownFunction_of_matchDeclaration? declared rfl
  · intro edited same
    refine containingFunction_congr fun index reached => ?_
    rw [declaredAt?, declaredAt?, same index reached]
  · rintro other moved (gains | gains)
    · exact gains.containingFunction_eq
    · exact gains.containingFunction_eq.symm
  · intro respaced each
    exact containingFunction_congr fun index _ => declaredAt?_respaced each index

/-- A file in which a reserved word stands between a declaration and the line below it. -/
def loopLines : List String := ["def run", "  while (open) \x7b", "    read", "end"]

/-- The same file with an empty line, with other blanks, and with another last line. -/
theorem containingFunction_nearest_loopLines :
    (IsNearestDeclaration loopLines 2 0 "run" ∧ containingFunction loopLines 2 = "run") ∧
    (GainsQuietLines loopLines 2 ["def run", "  while (open) \x7b", "", "    read", "end"] 3 ∧
      containingFunction ["def run", "  while (open) \x7b", "", "    read", "end"] 3 = "run") ∧
    (List.Forall₂ (fun line other => Text.Respaced line.toList other.toList) loopLines
        ["\tdef run", "while (open) \x7b", "read ", "end"] ∧
      containingFunction ["\tdef run", "while (open) \x7b", "read ", "end"] 2 = "run") ∧
    containingFunction ["def run", "  while (open) \x7b", "    read", "def stop"] 2 = "run" := by
  have nearest : IsNearestDeclaration loopLines 2 0 "run" := by
    refine ⟨by decide, by decide +kernel, fun nearer below above => ?_⟩
    obtain rfl | rfl : nearer = 1 ∨ nearer = 2 := by omega
    · decide +kernel
    · decide +kernel
  have gains : GainsQuietLines loopLines 2
      ["def run", "  while (open) \x7b", "", "    read", "end"] 3 :=
    ⟨["def run", "  while (open) \x7b"], [""], ["    read", "end"], rfl, rfl, by decide, by decide,
      by decide +kernel⟩
  have respaced : List.Forall₂ (fun line other => Text.Respaced line.toList other.toList) loopLines
      ["\tdef run", "while (open) \x7b", "read ", "end"] := by
    refine .cons ⟨"def run".toList, ⟨[], [], ?_⟩, ⟨['\t'], [], ?_⟩⟩ <|
      .cons ⟨"while (open) \x7b".toList, ⟨[' ', ' '], [], ?_⟩, ⟨[], [], ?_⟩⟩ <|
      .cons ⟨"read".toList, ⟨[' ', ' ', ' ', ' '], [], ?_⟩, ⟨[], [' '], ?_⟩⟩ <|
      .cons ⟨"end".toList, ⟨[], [], ?_⟩, ⟨[], [], ?_⟩⟩ .nil <;> decide
  have edited : ∀ index : Nat, (index : Int) ≤ 2 →
      ["def run", "  while (open) \x7b", "    read", "def stop"][index]? = loopLines[index]? := by
    intro index reached
    obtain rfl | rfl | rfl : index = 0 ∨ index = 1 ∨ index = 2 := by omega
    all_goals rfl
  obtain ⟨name_iff, -, -, edit, gain, respace⟩ := containingFunction_nearest loopLines 2
  have found := (name_iff "run").mpr (.inl ⟨0, nearest⟩)
  exact ⟨⟨nearest, found⟩, ⟨gains, (gain _ _ (.inl gains)).trans found⟩,
    ⟨respaced, (respace _ respaced).trans found⟩, (edit _ edited).trans found⟩

end TraceInquest
