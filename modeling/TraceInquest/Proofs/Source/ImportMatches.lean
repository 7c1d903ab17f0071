import TraceInquest.Proofs.Source.ImportFinds

/-! # Lines in which the patterns of imports are found

What a pattern of an import finds in a line that is made for it: the only find of a pattern that
would take less than the whole module, and that there is one where all are alike.

* **`attempt_constantPath`**, **`findAll_constantPattern`** — words joined by colons are taken as a
  whole.
* **`findAll_modulePattern`** — the only find of `import`.
* **`isFoundIn_quotedPattern`**, … — patterns that are found. -/

namespace TraceInquest

open Pattern

variable {module path word : List Char}

/-! ## Words joined by colons -/

/-- Whether a text is a word that begins with an ASCII capital. -/
structure IsConstant (word : List Char) : Prop where
  capital : ∃ c ∈ word.head?, c.isUpper = true
  all : ∀ c ∈ word, Text.isWordChar c = true

/-- Whether a text consists of such words with double colons between them. -/
inductive IsConstantPath : List Char → Prop
  | single {word : List Char} (is_constant : IsConstant word) : IsConstantPath word
  | cons {word path : List Char} (is_constant : IsConstant word) (is_path : IsConstantPath path) :
    IsConstantPath (word ++ ("::".toList ++ path))

theorem attempt_constant {here stop : Cursor Captured}
    {next : Cursor Captured → Option (Cursor Captured)} (is_constant : IsConstant word)
    {rest : List Char} (text : here.rest = word ++ rest)
    (maximal : ∀ c ∈ rest.head?, Text.isWordChar c = false)
    (ends : next (here.behind word rest) = some stop) : constant.attempt here next = some stop := by
  obtain ⟨c, first, upper⟩ := is_constant.capital
  obtain ⟨others, rfl⟩ := List.head?_eq_some_iff.mp (Option.mem_def.mp first)
  rw [constant, attempt_seq_cons, attempt_one text upper, attempt_seq_cons]
  refine attempt_many_whole rest rfl
    (fun d mem => is_constant.all d (List.mem_cons_of_mem c mem)) maximal ?_
  rw [Cursor.behind_behind]
  exact ends

/-- Words joined by double colons are taken up to the end of the text. -/
theorem attempt_constantPath {here stop : Cursor Captured}
    {next : Cursor Captured → Option (Cursor Captured)} (is_path : IsConstantPath path)
    (text : here.rest = path) (ends : next (here.behind path []) = some stop) :
    (seq [constant, repeated (seq ["::", constant])]).attempt here next = some stop := by
  induction is_path generalizing here next with
  | single is_constant =>
    rw [attempt_seq_cons]
    -- the only word is taken, and no colons are left for another round
    refine attempt_constant is_constant (text.trans (List.append_nil _).symm) (by rintro _ ⟨⟩) ?_
    rw [attempt_seq_cons, attempt_repeated_of_forall_not_spells]
    · exact ends
    · rintro taken rest at_end ⟨_, _, colons, -, rfl⟩
      rw [spells_literal.mp colons] at at_end
      cases at_end
  | @cons word path is_constant is_path ih =>
    rw [attempt_seq_cons]
    refine attempt_constant is_constant text (by rintro _ ⟨⟩; decide) ?_
    rw [attempt_seq_cons]
    refine attempt_repeated_of_some (fun there mem => ?_) ?_
    · -- a round takes the colons at least
      obtain ⟨_, here_eq, _, _, colons, -, rfl⟩ := spells_of_mem_stops mem
      rw [here_eq, spells_literal.mp colons]
      simp
      omega
    · rw [attempt_seq_cons, attempt_literal "::" path rfl]
      refine ih rfl ?_
      rw [Cursor.behind_behind, Cursor.behind_behind]
      exact ends

theorem IsConstantPath.exists_head? (is_path : IsConstantPath path) :
    ∃ c ∈ path.head?, c.isUpper = true := by
  cases is_path with
  | single is_constant => exact is_constant.capital
  | @cons word path is_constant is_path =>
    obtain ⟨c, first, upper⟩ := is_constant.capital
    refine ⟨c, ?_, upper⟩
    rw [List.head?_append, Option.mem_def.mp first]
    rfl

theorem not_isBlank_of_isUpper {c : Char} (upper : c.isUpper = true) : Text.isBlank c = false :=
  Text.not_isBlank_of (by decide +kernel) upper

/-- Words joined by double colons hold nothing else. -/
theorem IsConstantPath.forall_mem {path : List Char} (is_path : IsConstantPath path) :
    ∀ c ∈ path, Text.isWordChar c = true ∨ c = ':' := by
  induction is_path with
  | single is_constant => exact fun c mem => .inl (is_constant.all c mem)
  | cons is_constant is_path ih =>
    exact List.forall_mem_append.mpr ⟨fun c mem => .inl (is_constant.all c mem),
      List.forall_mem_append.mpr ⟨by decide, ih⟩⟩

theorem IsConstantPath.isSolid {path : List Char} (is_path : IsConstantPath path) :
    Text.IsSolid path := by
  constructor
  · obtain ⟨c, first, -⟩ := is_path.exists_head?
    rintro rfl
    cases first
  · intro c mem
    rcases is_path.forall_mem c mem with word | rfl
    · exact Text.not_isBlank_of_isWordChar word
    · decide

/-- The only find of a keyword in front of words joined by double colons. -/
theorem findAll_constantPattern {keyword : String} {c : Char} (starts : keyword.toList.head? = some c)
    (c_word : Text.isWordChar c = true) (is_path : IsConstantPath path) :
    ∃ found, (constantPattern keyword).findAll (keyword.toList ++ ' ' :: path) = [found] ∧
      found.captured .name = path := by
  have edge : Cursor.atWordEdge
      (⟨none, keyword.toList ++ ' ' :: path, []⟩ : Cursor Captured) = true := by
    simp [Cursor.atWordEdge, starts, c_word]
  obtain ⟨d, first, upper⟩ := is_path.exists_head?
  have kept : ∀ e ∈ path.head?, Text.isBlank e = false := by
    intro e first'
    obtain rfl := Option.mem_unique first first'
    exact not_isBlank_of_isUpper upper
  -- behind the keyword and the blank comes the whole path
  obtain ⟨stop, succeeds, stop_rest, captured⟩ : ∃ stop,
      (constantPattern keyword).attempt ⟨none, keyword.toList ++ ' ' :: path, []⟩ some = some stop ∧
      stop.rest = [] ∧
      stop.captured = [(.name, path ++ [], [])] := by
    refine ⟨((Cursor.behind ⟨none, keyword.toList ++ ' ' :: path, []⟩ keyword.toList
      (' ' :: path)).behind [' '] path |>.behind path []).note .name path, ?_, rfl, ?_⟩
    · rw [constantPattern, attempt_seq_cons, attempt_atWordEdge edge, attempt_seq_cons,
        attempt_literal keyword _ rfl, attempt_seq_cons]
      refine @attempt_many1_whole _ _ _ _ _ [' '] path rfl (by decide) (by decide) kept ?_
      exact attempt_constantPath is_path rfl rfl
    · rw [List.append_nil]
      rfl
  refine ⟨⟨_, stop⟩, findAll_eq_singleton succeeds ?_ ?_, captured_of_last captured⟩
  · rw [stop_rest]
    exact List.length_pos_iff.mpr (by simp)
  · -- nothing is left behind the path
    rw [stop_rest]
    rintro part infix_nil ⟨_, _, rfl, ⟨_, _, keyword_spelled, -, rfl⟩, rfl⟩
    have empty := (List.append_eq_nil_iff.mp (List.infix_nil.mp infix_nil)).2
    replace empty := (List.append_eq_nil_iff.mp empty).1
    rw [spells_literal.mp keyword_spelled] at empty
    rw [empty] at starts
    cases starts

/-! ## Modules behind `import` -/

/-- A module is taken up to the end of the line or the semicolon. -/
theorem exists_attempt_module {here : Cursor Captured} {ending : String} (ended : ending ∈ ["", ";"])
    (nonempty : module ≠ []) (all : ∀ c ∈ module, isModuleChar c = true)
    (text : here.rest = module ++ ending.toList) :
    ∃ stop, (seq [notAhead fromAhead, Pattern.optional (seq ["static", blanks1]),
        capture .name (seq [many1 isModuleChar, Pattern.optional ".*"])]).attempt here some =
          some stop ∧ stop.rest = ending.toList ∧
      stop.captured = (.name, here.rest, ending.toList) :: here.captured := by
  have ending_plain : ∀ c ∈ ending.toList, Text.isBlank c = false ∧ isModuleChar c = false := by
    simp only [List.mem_cons, List.not_mem_nil, or_false] at ended
    rcases ended with rfl | rfl <;> decide
  have solid {taken rest : List Char} (here_eq : here.rest = taken ++ rest) :
      ∀ c ∈ taken, Text.isBlank c = false := by
    intro c mem
    have in_text : c ∈ module ++ ending.toList := by
      rw [← text, here_eq]
      exact List.mem_append_left rest mem
    rcases List.mem_append.mp in_text with in_module | in_ending
    · exact not_isBlank_of_isModuleChar (all c in_module)
    · exact (ending_plain c in_ending).1
  -- without blanks neither the keyword `from` nor a modifier can be there
  have no_from : fromAhead.stops here = [] := by
    rw [List.eq_nil_iff_forall_not_mem]
    intro stop mem
    obtain ⟨_, here_eq, run, _, -, ⟨_, _, rfl, ⟨_, _, -, ⟨_, _, ⟨b, blank, rfl⟩, rfl, rfl⟩, rfl⟩, rfl⟩,
      rfl⟩ := spells_of_mem_stops mem
    rw [solid here_eq b (by simp)] at blank
    cases blank
  have no_modifier (next : Cursor Captured → Option (Cursor Captured)) :
      (seq ["static", blanks1]).attempt here next = none := by
    refine attempt_eq_none fun taken stop here_eq spelled => ?_
    obtain ⟨_, _, -, ⟨gap, _, gap_spelled, rfl, rfl⟩, rfl⟩ := spelled
    obtain ⟨gap_ne, blank⟩ := spells_run.mp gap_spelled
    obtain ⟨b, others, rfl⟩ := List.exists_cons_of_ne_nil gap_ne
    have kept := solid here_eq b (by simp)
    rw [blank b List.mem_cons_self] at kept
    cases kept
  have maximal : ∀ c ∈ ending.toList.head?, isModuleChar c = false :=
    fun c first => (ending_plain c (List.mem_of_mem_head? first)).2
  rw [attempt_seq_cons, attempt_notAhead no_from, attempt_seq_cons, Pattern.optional,
    attempt_either_of_none (no_modifier _)]
  simp only [List.mem_cons, List.not_mem_nil, or_false] at ended
  rcases ended with rfl | rfl <;>
    exact ⟨_, attempt_many1_whole _ text nonempty all maximal rfl, rfl, rfl⟩

/-- The only find of `import` in front of a module. -/
theorem findAll_modulePattern {ending : String} (ended : ending ∈ ["", ";"])
    (nonempty : module ≠ []) (all : ∀ c ∈ module, isModuleChar c = true) :
    ∃ found, modulePattern.findAll ("import ".toList ++ (module ++ ending.toList)) = [found] ∧
      found.captured .name = module := by
  have kept : ∀ c ∈ (module ++ ending.toList).head?, Text.isBlank c = false := by
    intro c first
    rw [List.head?_append_of_ne_nil module nonempty] at first
    exact not_isBlank_of_isModuleChar (all c (List.mem_of_mem_head? first))
  -- behind the keyword and the blank comes the module
  obtain ⟨stop, succeeds, stop_rest, captured⟩ :=
    @exists_attempt_module module ((Cursor.behind ⟨none, "import ".toList ++ (module ++ ending.toList),
      []⟩ "import".toList (' ' :: (module ++ ending.toList))).behind [' '] _) ending ended nonempty all
      rfl
  refine ⟨⟨_, stop⟩, findAll_eq_singleton ?_ ?_ ?_, captured_of_last captured⟩
  · show (seq (atStart :: literal "import" :: blanks1 :: _)).attempt _ some = _
    rw [attempt_seq_cons, attempt_atStart rfl, attempt_seq_cons, attempt_literal "import" _ rfl,
      attempt_seq_cons]
    exact @attempt_many1_whole _ _ _ _ _ [' '] _ rfl (by decide) (by decide) kept succeeds
  · rw [stop_rest]
    simp
    omega
  · -- the keyword is longer than what is left
    rw [stop_rest]
    rintro part infix_rest ⟨_, _, rfl, ⟨_, _, keyword, -, rfl⟩, rfl⟩
    rw [spells_literal.mp keyword] at infix_rest
    have shorter := infix_rest.length_le
    simp only [List.mem_cons, List.not_mem_nil, or_false] at ended
    rcases ended with rfl | rfl <;> simp at shorter

/-- The keyword `from` further on in a line is seen from everywhere in front of it. -/
theorem stops_fromAhead_ne_nil {here : Cursor Captured} {rest : List Char}
    (text : here.rest = word ++ " from ".toList ++ rest) (in_line : '\n' ∉ word) :
    fromAhead.stops here ≠ [] := by
  have run_plain : ∀ c ∈ word ++ [' '], (c != '\n') = true := by
    intro c mem
    rcases List.mem_append.mp mem with in_word | is_blank
    · exact bne_iff_ne.mpr fun same => in_line (same ▸ in_word)
    · rw [List.mem_singleton.mp is_blank]
      decide
  have cut : here.rest = (word ++ [' ']) ++ ("from".toList ++ ' ' :: rest) := by
    rw [text]
    simp
  have edge : (here.behind (word ++ [' ']) ("from".toList ++ ' ' :: rest)).atWordEdge = true := by
    rw [Cursor.atWordEdge, Cursor.behind, List.getLast?_concat]
    rfl
  exact List.ne_nil_of_mem (mem_stops_seq_cons.mpr ⟨_, mem_stops_span.mpr ⟨_, _, cut, run_plain, rfl⟩,
    mem_stops_seq_cons.mpr ⟨_, mem_stops_atWordEdge.mpr ⟨edge, rfl⟩, mem_stops_seq_cons.mpr
      ⟨_, mem_stops_literal.mpr ⟨' ' :: rest, rfl, rfl⟩, mem_stops_seq_cons.mpr
        ⟨_, mem_stops_one.mpr ⟨' ', rest, rfl, by decide, rfl⟩, mem_stops_seq_nil.mpr rfl⟩⟩⟩⟩)

/-! ## Patterns that are found -/

variable {mark : Char}

theorem spells_quotedModule (marked : isQuote mark = true) (nonempty : module ≠ [])
    (unquoted : ∀ c ∈ module, isQuote c = false) :
    quotedModule.Spells (mark :: (module ++ [mark])) := by
  have accepted : ∀ c ∈ module, (c != '\'' && c != '"') = true := by
    intro c mem
    have plain := unquoted c mem
    simpa [isQuote] using plain
  have quote_spelled : quote.Spells [mark] := ⟨mark, marked, rfl⟩
  exact ⟨[mark], _, quote_spelled, ⟨module, [mark], spells_run.mpr ⟨nonempty, accepted⟩,
    ⟨[mark], [], quote_spelled, rfl, rfl⟩, rfl⟩, rfl⟩

theorem isPlain_quotedModule : quotedModule.IsPlain := by simp [quotedModule, quote]

/-- A module between quotes behind a keyword. -/
theorem isFoundIn_quotedPattern {keyword : String} {c : Char} (starts : keyword.toList.head? = some c)
    (c_word : Text.isWordChar c = true) (marked : isQuote mark = true) (nonempty : module ≠ [])
    (unquoted : ∀ c ∈ module, isQuote c = false) :
    (quotedPattern keyword).isFoundIn (keyword.toList ++ ' ' :: mark :: (module ++ [mark])) =
      true := by
  have spelled : (seq [blanks1, quotedModule]).Spells (' ' :: mark :: (module ++ [mark])) :=
    ⟨[' '], _, spells_blank1, ⟨_, [], spells_quotedModule marked nonempty unquoted, rfl,
      (List.append_nil _).symm⟩, rfl⟩
  have found := @isFoundIn_keyword_of_spells _ _ keyword [] _ c starts c_word Text.endsOutside_nil
    (by simp [isPlain_quotedModule, blanks1]) spelled []
  rwa [List.append_nil] at found

/-- A module between quotes behind two keywords with a word between them. -/
theorem isFoundIn_importFromPattern (is_word : Text.IsWord word) (marked : isQuote mark = true)
    (nonempty : module ≠ []) (unquoted : ∀ c ∈ module, isQuote c = false) :
    importFromPattern.isFoundIn
      ("import ".toList ++ (word ++ (" from ".toList ++ mark :: (module ++ [mark])))) = true := by
  have spelled : (seq [blanks1, few (· != '\n'), blanks1, "from", blanks1, quotedModule]).Spells
      (' ' :: (word ++ (" from ".toList ++ mark :: (module ++ [mark])))) := by
    have in_line : (few (· != '\n') : Pattern Captured).Spells word :=
      fun c mem => bne_iff_ne.mpr fun same => is_word.not_mem (by decide) (same ▸ mem)
    exact ⟨[' '], _, spells_blank1, ⟨word, _, in_line, ⟨[' '], _, spells_blank1,
      ⟨"from".toList, _, spells_literal.mpr rfl, ⟨[' '], _, spells_blank1,
      ⟨_, [], spells_quotedModule marked nonempty unquoted, rfl, (List.append_nil _).symm⟩, rfl⟩, rfl⟩,
      rfl⟩, rfl⟩, rfl⟩
  have found := @isFoundIn_keyword_of_spells _ _ "import" [] _ 'i' (by rfl) (by decide)
    Text.endsOutside_nil (by simp [isPlain_quotedModule, blanks1]) spelled []
  rwa [List.append_nil] at found

/-- A module between quotes and parentheses behind something else than a word. -/
theorem isFoundIn_requireCallPattern {skipped : List Char} (outside : Text.EndsOutside skipped)
    (marked : isQuote mark = true) (nonempty : module ≠ [])
    (unquoted : ∀ c ∈ module, isQuote c = false) :
    requireCallPattern.isFoundIn
      (skipped ++ ("require(".toList ++ mark :: (module ++ [mark, ')']))) = true := by
  have spelled : (seq [blanks, "(", blanks, quotedModule, blanks, ")"]).Spells
      ('(' :: (mark :: (module ++ [mark])) ++ [')']) :=
    ⟨[], _, spells_no_blanks, ⟨['('], _, spells_literal.mpr rfl, ⟨[], _, spells_no_blanks,
      ⟨_, [')'], spells_quotedModule marked nonempty unquoted, ⟨[], _, spells_no_blanks,
      ⟨[')'], [], spells_literal.mpr rfl, rfl, rfl⟩, rfl⟩, rfl⟩, rfl⟩, rfl⟩, rfl⟩
  have found := @isFoundIn_keyword_of_spells _ _ "require" skipped _ 'r' (by rfl) (by decide) outside
    (by simp [isPlain_quotedModule, blanks]) spelled []
  have text_eq : "require".toList ++ ('(' :: (mark :: (module ++ [mark])) ++ [')']) ++ [] =
      "require(".toList ++ mark :: (module ++ [mark, ')']) := by simp
  rwa [text_eq] at found

/-- A module between two keywords, of which the second is a word of its own. -/
theorem isFoundIn_fromPattern (nonempty : module ≠ [])
    (solid : ∀ c ∈ module, Text.isBlank c = false) {rest : List Char}
    (ends : ∀ c ∈ rest.head?, Text.isWordChar c = false) :
    fromPattern.isFoundIn ("from ".toList ++ (module ++ (" import".toList ++ rest))) = true := by
  rw [← List.append_assoc module, ← List.append_assoc "from ".toList]
  have spelled : (seq ["from", blanks1, capture .name (many1 fun c => !Text.isBlank c), blanks1,
      "import"]).Spells ("from ".toList ++ (module ++ " import".toList)) :=
    ⟨"from".toList, _, spells_literal.mpr rfl, ⟨[' '], _, spells_blank1,
      ⟨module, _, spells_run.mpr ⟨nonempty, fun c mem => by rw [solid c mem, Bool.not_false]⟩,
      ⟨[' '], _, spells_blank1, ⟨"import".toList, [], spells_literal.mpr rfl, rfl, rfl⟩, rfl⟩, rfl⟩,
      rfl⟩, rfl⟩
  obtain ⟨stop, mem, stop_rest⟩ := @exists_mem_stops_of_spells _ _ (by simp [blanks1])
    (cursorBehind [] ("from ".toList ++ (module ++ " import".toList) ++ rest)) _ rest rfl spelled
  -- the last character in front of the stop is that of the keyword
  obtain ⟨taken, taken_eq, previous⟩ := passes_of_mem_stops mem
  rw [stop_rest] at taken_eq
  obtain rfl := List.append_cancel_right taken_eq
  have edge : stop.atWordEdge = true := by
    rw [Cursor.atWordEdge, previous, stop_rest, List.getLast?_append, List.getLast?_append]
    cases first : rest.head? with
    | none => rfl
    | some c =>
      rw [Option.any_some, ends c first]
      rfl
  have last : stop ∈ (seq ([literal "from", blanks1, capture .name (many1 fun c => !Text.isBlank c),
      blanks1, literal "import"] ++ [atWordEdge])).stops
        (cursorBehind [] ("from ".toList ++ (module ++ " import".toList) ++ rest)) :=
    mem_stops_seq_append.mpr ⟨stop, mem, mem_stops_seq_cons.mpr
      ⟨stop, mem_stops_atWordEdge.mpr ⟨edge, rfl⟩, mem_stops_seq_nil.mpr rfl⟩⟩
  have whole := mem_stops_seq_cons.mpr ⟨_, mem_stops_atStart.mpr ⟨rfl, rfl⟩, last⟩
  exact (isSome_find?_iff fromPattern _).mpr ⟨[], _, rfl, List.ne_nil_of_mem whole⟩

/-- A module in front of a semicolon. -/
theorem isFoundIn_usePattern (nonempty : module ≠ []) (all : ∀ c ∈ module, isUsedChar c = true) :
    usePattern.isFoundIn ("use ".toList ++ (module ++ [';'])) = true := by
  have spelled : (seq ["use", blanks1, capture .name (many1 isUsedChar), blanks, ";"]).Spells
      ("use ".toList ++ (module ++ [';'])) :=
    ⟨"use".toList, _, spells_literal.mpr rfl, ⟨[' '], _, spells_blank1,
      ⟨module, _, spells_run.mpr ⟨nonempty, all⟩, ⟨[], _, spells_no_blanks,
      ⟨[';'], [], spells_literal.mpr rfl, rfl, rfl⟩, rfl⟩, rfl⟩, rfl⟩, rfl⟩
  have found := isFoundIn_atStart_of_spells (by simp [blanks, blanks1]) spelled []
  rwa [List.append_nil] at found

/-- A header between angle brackets or double quotes. -/
theorem isFoundIn_headerPattern {opening closing : Char} (opens : opening ∈ "<\"".toList)
    (closes : closing ∈ ">\"".toList) (nonempty : module ≠ [])
    (plain : ∀ c ∈ module, c ∉ ">\"".toList) :
    headerPattern.isFoundIn ("#include ".toList ++ opening :: (module ++ [closing])) = true := by
  have accepted : ∀ c ∈ module, (c != '>' && c != '"') = true := by
    intro c mem
    have refused := plain c mem
    simpa using refused
  have spelled : (seq ["#", blanks, "include", blanks1, among "<\"",
      capture .name (many1 fun c => c != '>' && c != '"'), among ">\""]).Spells
        ("#include ".toList ++ opening :: (module ++ [closing])) :=
    ⟨['#'], _, spells_literal.mpr rfl, ⟨[], _, spells_no_blanks, ⟨"include".toList, _,
      spells_literal.mpr rfl, ⟨[' '], _, spells_blank1, ⟨[opening], _,
      ⟨opening, List.contains_iff_mem.mpr opens, rfl⟩, ⟨module, _, spells_run.mpr ⟨nonempty, accepted⟩,
      ⟨[closing], [], ⟨closing, List.contains_iff_mem.mpr closes, rfl⟩, rfl, rfl⟩, rfl⟩, rfl⟩, rfl⟩, rfl⟩,
      rfl⟩, rfl⟩
  have found := isFoundIn_atStart_of_spells (by simp [blanks, blanks1]) spelled []
  rwa [List.append_nil] at found

end TraceInquest
