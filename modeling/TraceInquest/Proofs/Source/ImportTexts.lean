import TraceInquest.Proofs.Source.ImportMatches

/-! # What the patterns find in an import

An import is recognised by one pattern or two, and whatever the other patterns find in it is the same
module. The traces of the patterns tell which finds there can be.

* **`ModuleName`** — a module that is named between marks or blanks.
* **`ImportsOnly module text`** — what the patterns find in an import.
* **`only_of_traces`** — that they find no more, from the traces in a text.
* **`importsOnly_quoted`**, **`importsOnly_fromImport`**, … — each way to import a module. -/

namespace TraceInquest

open Pattern

/-! ## The parts of an import -/

/-- A module that is named between marks or blanks. -/
structure ModuleName where
  /-- The text between the marks. -/
  text : String
  nonempty : text.toList ≠ []
  plain : ∀ c ∈ text.toList, Text.isBlank c = false ∧ c ∉ ['\'', '"', '<', '>']

/-- The marks around a module. -/
def quotes : List String := ["'", "\""]

/-! ## What the patterns find -/

/-- Whether a pattern captures one module alone in a text. -/
def CapturesOnly (module text : List Char) (pattern : Pattern Captured) : Prop :=
  ∀ found ∈ pattern.findAll text, found.captured .name = module

/-- Whether the patterns of imports capture one module alone in a text, and one of them is found. -/
structure ImportsOnly (module text : List Char) : Prop where
  only : ∀ pattern ∈ importPatterns, CapturesOnly module text pattern
  is_found : ∃ pattern ∈ importPatterns, pattern.isFoundIn text = true

variable {text : List Char} {mark : Char}

/-- A word in front of a blank does not end with a keyword, or what is behind the blank does not begin
with a capital. -/
theorem not_keywordBefore_word_blank {keyword : String} {word behind : List Char}
    (listed : keyword ∈ constantKeywords) (solid : ∀ c ∈ word, Text.isBlank c = false)
    (ends : ¬keyword.toList <:+ word ∨ ∀ c ∈ (Text.stripLeft behind).head?, c.isUpper = false)
    (no_constant : ¬Text.KeywordBefore keyword Char.isUpper behind) :
    ¬Text.KeywordBefore keyword Char.isUpper (word ++ ' ' :: behind) := by
  have absent : ∀ keyword ∈ constantKeywords, ' ' ∉ keyword.toList := by decide
  intro stands
  rcases stands.of_word_blank solid (absent keyword listed) (fun c => not_isBlank_of_isUpper) with
    is_behind | ⟨ended, c, first, upper⟩
  · exact no_constant is_behind
  · rcases ends with no_end | no_start
    · exact no_end ended
    · rw [no_start c first] at upper
      cases upper

/-- Whether no keyword stands in front of a capital. -/
def NoConstants (text : List Char) : Prop :=
  ∀ keyword ∈ constantKeywords, ¬Text.KeywordBefore keyword Char.isUpper text

namespace NoConstants

theorem of_solid (solid : ∀ c ∈ text, Text.isBlank c = false) : NoConstants text :=
  fun _ _ => Text.KeywordBefore.not_of_solid solid

theorem word_blank {word behind : List Char} (solid : ∀ c ∈ word, Text.isBlank c = false)
    (ends : (∀ keyword ∈ constantKeywords, ¬keyword.toList <:+ word) ∨
      ∀ c ∈ (Text.stripLeft behind).head?, c.isUpper = false)
    (no_constants : NoConstants behind) : NoConstants (word ++ ' ' :: behind) :=
  fun keyword listed => not_keywordBefore_word_blank listed solid
    (ends.imp_left fun no_end => no_end keyword listed) (no_constants keyword listed)

/-- Without a keyword in front of a capital two of the patterns find nothing. -/
theorem capturesOnly {module : List Char} (no_constants : NoConstants text) :
    ∀ keyword ∈ constantKeywords, CapturesOnly module text (constantPattern keyword) :=
  fun keyword listed _ find =>
    absurd (keywordBefore_of_constantPattern listed find) (no_constants keyword listed)

end NoConstants

/-- All finds capture one module if those of each kind do. A pattern whose keyword is unlike the
beginning of the text is not found. -/
theorem only_of_traces {lead : String} {module : List Char} (leads : lead.toList <+: text)
    (quoted : ∀ inner, Text.Enclosed isQuote isQuote inner text → inner = module)
    (constants : ∀ keyword ∈ constantKeywords, CapturesOnly module text (constantPattern keyword))
    (of_from : Text.StartUnlike lead "from" ∨ CapturesOnly module text fromPattern)
    (of_import : Text.StartUnlike lead "import" ∨ CapturesOnly module text modulePattern)
    (of_use : Text.StartUnlike lead "use" ∨ CapturesOnly module text usePattern)
    (of_header : Text.StartUnlike lead "#" ∨ CapturesOnly module text headerPattern) :
    ∀ pattern ∈ importPatterns, CapturesOnly module text pattern := by
  have anchored : ∀ entry ∈ anchoredPatterns,
      Text.StartUnlike lead entry.1 ∨ CapturesOnly module text entry.2 := by
    simp only [anchoredPatterns, List.forall_mem_cons]
    exact ⟨of_from, of_import, of_use, of_header, List.forall_mem_nil _⟩
  intro pattern listed found find
  rcases mem_importPatterns.mp listed with quoting | constant | anchor
  · exact quoted _ (enclosed_of_quotingPatterns quoting find)
  · obtain ⟨keyword, keyword_listed, rfl⟩ := List.mem_map.mp constant
    exact constants keyword keyword_listed found find
  · obtain ⟨entry, entry_listed, rfl⟩ := List.mem_map.mp anchor
    rcases anchored entry entry_listed with unlike | captures
    · exact absurd (prefix_of_anchoredPatterns entry_listed find) (unlike.not_prefix leads)
    · exact captures found find

/-- Without quotes nothing is enclosed in them. -/
theorem quoted_of_unquoted (unquoted : ∀ c ∈ text, isQuote c = false) (module : List Char) :
    ∀ inner, Text.Enclosed isQuote isQuote inner text → inner = module := by
  intro inner enclosed
  obtain ⟨c, mem, quote⟩ := enclosed.exists_mem
  rw [unquoted c mem] at quote
  cases quote

namespace ModuleName

theorem solid (module : ModuleName) : ∀ c ∈ module.text.toList, Text.isBlank c = false :=
  fun c mem => (module.plain c mem).1

theorem isSolid (module : ModuleName) : Text.IsSolid module.text.toList :=
  ⟨module.nonempty, module.solid⟩

theorem unquoted (module : ModuleName) : ∀ c ∈ module.text.toList, isQuote c = false := by
  intro c mem
  have plain := (module.plain c mem).2
  simp only [List.mem_cons, List.not_mem_nil, or_false, not_or] at plain
  simp [isQuote, plain]

theorem unbracketed (module : ModuleName) : ∀ c ∈ module.text.toList,
    "<\"".toList.contains c = false ∧ ">\"".toList.contains c = false := by
  intro c mem
  have plain := (module.plain c mem).2
  simp only [List.mem_cons, List.not_mem_nil, or_false, not_or] at plain
  simp [plain]

end ModuleName

/-! ## Modules between quotes -/

theorem exists_mark {quote : String} (marked : quote ∈ quotes) :
    ∃ mark, quote.toList = [mark] ∧ isQuote mark = true := by
  simp only [quotes, List.mem_cons, List.not_mem_nil, or_false] at marked
  rcases marked with rfl | rfl
  · exact ⟨'\'', rfl, by decide⟩
  · exact ⟨'"', rfl, by decide⟩

/-- A quote is neither blank nor part of a module. -/
theorem isQuote_plain {c : Char} (quote : isQuote c = true) :
    Text.isBlank c = false ∧ isModuleChar c = false := by
  have table : ∀ c ∈ "'\"".toList, Text.isBlank c = false ∧ isModuleChar c = false := by decide
  exact table c (List.contains_iff_mem.mp quote)

theorem not_isQuote_of_isModuleChar {c : Char} (accepted : isModuleChar c = true) :
    isQuote c = false := by
  refine Bool.eq_false_iff.mpr fun quote => ?_
  rw [(isQuote_plain quote).2] at accepted
  cases accepted

theorem not_isQuote_of_isWordChar {c : Char} (word : Text.isWordChar c = true) : isQuote c = false :=
  not_isQuote_of_isModuleChar (by rw [isModuleChar, word, Bool.true_or])

/-- What stands between the only two quotes of a text. -/
theorem quoted_of_once {module : ModuleName} {head tail : List Char} (marked : isQuote mark = true)
    (text_eq : text = head ++ mark :: (module.text.toList ++ mark :: tail))
    (head_plain : ∀ c ∈ head, isQuote c = false) (tail_plain : ∀ c ∈ tail, isQuote c = false) :
    ∀ inner, Text.Enclosed isQuote isQuote inner text → inner = module.text.toList :=
  fun _ enclosed => enclosed.eq_of_once text_eq marked head_plain
    (fun c mem => ⟨module.unquoted c mem, module.unquoted c mem⟩)
    fun c mem => ⟨tail_plain c mem, tail_plain c mem⟩

/-- A module between quotes has no blanks, and neither have the quotes. -/
theorem solid_quoted (module : ModuleName) (marked : isQuote mark = true) {tail : List Char}
    (tail_solid : ∀ c ∈ tail, Text.isBlank c = false) :
    ∀ c ∈ mark :: (module.text.toList ++ mark :: tail), Text.isBlank c = false := by
  have mark_solid := (isQuote_plain marked).1
  exact List.forall_mem_cons.mpr ⟨mark_solid, List.forall_mem_append.mpr
    ⟨module.solid, List.forall_mem_cons.mpr ⟨mark_solid, tail_solid⟩⟩⟩

/-- A keyword with a module between quotes behind it. -/
theorem importsOnly_quoted {keyword : String} {module : ModuleName} (leads : keyword ∈ quotingKeywords)
    (marked : isQuote mark = true)
    (text_eq : text = keyword.toList ++ ' ' :: mark :: (module.text.toList ++ [mark])) :
    ImportsOnly module.text.toList text := by
  have keywords_plain : ∀ keyword ∈ quotingKeywords, (∀ c ∈ keyword.toList, isQuote c = false) ∧
      (∀ c ∈ keyword.toList, Text.isBlank c = false) ∧
      (∀ constant ∈ constantKeywords, ¬constant.toList <:+ keyword.toList) ∧
      (∀ start ∈ ["from", "use", "#"], Text.StartUnlike keyword start) ∧
      (keyword = "import" ∨ Text.StartUnlike keyword "import") ∧
      ∃ c ∈ keyword.toList.head?, Text.isWordChar c = true := by
    decide
  obtain ⟨unquoted, solid, no_end, unlike, is_import, c, starts, c_word⟩ := keywords_plain keyword leads
  constructor
  · have no_constants : NoConstants text := by
      rw [text_eq]
      exact .word_blank solid (.inl no_end) (.of_solid (solid_quoted module marked (by simp)))
    have head_plain : ∀ c ∈ keyword.toList ++ [' '], isQuote c = false :=
      List.forall_mem_append.mpr ⟨unquoted, by decide⟩
    refine only_of_traces ⟨_, text_eq.symm⟩ (quoted_of_once marked (by simp [text_eq]) head_plain
      (List.forall_mem_nil _)) no_constants.capturesOnly (.inl (unlike "from" (by decide))) ?_
      (.inl (unlike "use" (by decide))) (.inl (unlike "#" (by decide)))
    refine is_import.symm.imp_right ?_
    -- behind the keyword `import` is a quote
    rintro rfl found find
    obtain ⟨behind, text_eq', ⟨c, first, accepted⟩, -⟩ := exists_ahead_of_modulePattern find
    obtain rfl := List.append_cancel_left (text_eq.symm.trans text_eq')
    rw [Text.stripLeft_space_cons (isQuote_plain marked).1, List.head?_cons] at first
    rw [← Option.some_inj.mp first, (isQuote_plain marked).2] at accepted
    cases accepted
  · rw [text_eq]
    exact ⟨quotedPattern keyword, mem_importPatterns.mpr (.inl
      (List.mem_append_left _ (List.mem_map_of_mem leads))),
      isFoundIn_quotedPattern starts c_word marked module.nonempty module.unquoted⟩

/-- Two keywords with a word between them and a module between quotes behind them. -/
theorem importsOnly_importFrom {word : List Char} {module : ModuleName} (is_word : Text.IsWord word)
    (marked : isQuote mark = true)
    (text_eq : text =
      "import ".toList ++ (word ++ (" from ".toList ++ mark :: (module.text.toList ++ [mark])))) :
    ImportsOnly module.text.toList text := by
  constructor
  · have no_constants : NoConstants text := by
      rw [text_eq]
      refine @NoConstants.word_blank "import".toList _ (by decide) (.inl (by decide)) ?_
      refine @NoConstants.word_blank word _ is_word.not_isBlank (.inr (by rintro _ ⟨⟩; decide)) ?_
      refine @NoConstants.word_blank "from".toList _ (by decide) (.inl (by decide)) ?_
      exact .of_solid (solid_quoted module marked (List.forall_mem_nil _))
    have head_plain : ∀ c ∈ "import ".toList ++ (word ++ " from ".toList), isQuote c = false :=
      List.forall_mem_append.mpr ⟨by decide, List.forall_mem_append.mpr
        ⟨fun c mem => not_isQuote_of_isWordChar (is_word.all c mem), by decide⟩⟩
    refine @only_of_traces _ "import" _ ⟨_, text_eq.symm⟩
      (quoted_of_once marked (by simp [text_eq]) head_plain (List.forall_mem_nil _))
      no_constants.capturesOnly (.inl (by decide)) (.inr fun found find => ?_) (.inl (by decide))
      (.inl (by decide))
    -- the keyword `from` follows the word
    obtain ⟨behind, text_eq', -, here, here_rest, absent⟩ := exists_ahead_of_modulePattern find
    have behind_eq : behind =
        ' ' :: (word ++ (" from ".toList ++ mark :: (module.text.toList ++ [mark]))) :=
      List.append_cancel_left (text_eq'.symm.trans text_eq)
    obtain ⟨c, others, rfl⟩ := List.exists_cons_of_ne_nil is_word.nonempty
    have kept := is_word.not_isBlank c List.mem_cons_self
    rw [behind_eq, List.cons_append, Text.stripLeft_space_cons kept] at here_rest
    refine absurd absent (@stops_fromAhead_ne_nil (c :: others) here
      (mark :: (module.text.toList ++ [mark])) ?_ (is_word.not_mem (by decide)))
    rw [here_rest, List.append_assoc, List.cons_append]
  · rw [text_eq]
    exact ⟨importFromPattern, mem_importPatterns.mpr (.inl (by simp [quotingPatterns])),
      isFoundIn_importFromPattern is_word marked module.nonempty module.unquoted⟩

/-- A module between quotes and parentheses that is bound to a word. -/
theorem importsOnly_requireCall {word : List Char} {module : ModuleName} (is_word : Text.IsWord word)
    (marked : isQuote mark = true)
    (text_eq : text = "const ".toList ++
      (word ++ (" = require(".toList ++ mark :: (module.text.toList ++ [mark, ')'])))) :
    ImportsOnly module.text.toList text := by
  constructor
  · -- the bound word may end with a keyword of constants, but the sign is behind it, which is no
    -- upper-case letter
    have no_constants : NoConstants text := by
      rw [text_eq]
      refine @NoConstants.word_blank "const".toList _ (by decide) (.inl (by decide)) ?_
      refine @NoConstants.word_blank word _ is_word.not_isBlank (.inr (by rintro _ ⟨⟩; decide)) ?_
      refine @NoConstants.word_blank "=".toList _ (by decide) (.inl (by decide)) (.of_solid ?_)
      exact List.forall_mem_append.mpr ⟨by decide, solid_quoted module marked (by decide)⟩
    have head_plain : ∀ c ∈ "const ".toList ++ (word ++ " = require(".toList), isQuote c = false :=
      List.forall_mem_append.mpr ⟨by decide, List.forall_mem_append.mpr
        ⟨fun c mem => not_isQuote_of_isWordChar (is_word.all c mem), by decide⟩⟩
    exact @only_of_traces _ "const" _ ⟨_, text_eq.symm⟩
      (@quoted_of_once text mark module _ [')'] marked (by simp [text_eq]) head_plain (by decide))
      no_constants.capturesOnly (.inl (by decide)) (.inl (by decide)) (.inl (by decide))
      (.inl (by decide))
  · -- `require` is a word of its own
    have outside : Text.EndsOutside ("const ".toList ++ (word ++ " = ".toList)) := by
      rw [← List.append_assoc]
      exact Text.EndsOutside.append_left (by rintro _ ⟨⟩; decide) (by decide) _
    have found := isFoundIn_requireCallPattern outside marked module.nonempty module.unquoted
    refine ⟨requireCallPattern, mem_importPatterns.mpr (.inl (by simp [quotingPatterns])), ?_⟩
    rw [text_eq]
    rw [List.append_assoc, List.append_assoc] at found
    exact found

/-! ## Modules without quotes -/

/-- A module between two keywords, with a word behind them. -/
theorem importsOnly_fromImport {word : List Char} {module : ModuleName} (is_word : Text.IsWord word)
    (text_eq : text = "from ".toList ++ (module.text.toList ++ (" import".toList ++ ' ' :: word))) :
    ImportsOnly module.text.toList text := by
  constructor
  · have unquoted : ∀ c ∈ text, isQuote c = false := by
      rw [text_eq]
      simp only [List.forall_mem_append, List.forall_mem_cons]
      exact ⟨by decide, module.unquoted, by decide, by decide,
        fun c mem => not_isQuote_of_isWordChar (is_word.all c mem)⟩
    -- the module may end with a keyword of constants, but `import` is behind it, which starts with
    -- a lower-case letter
    have no_constants : NoConstants text := by
      rw [text_eq]
      refine @NoConstants.word_blank "from".toList _ (by decide) (.inl (by decide)) ?_
      refine @NoConstants.word_blank module.text.toList _ module.solid
        (.inr (by rintro _ ⟨⟩; decide)) ?_
      refine @NoConstants.word_blank "import".toList _ (by decide) (.inl (by decide)) ?_
      exact .of_solid is_word.not_isBlank
    have starts : StartsWithRun "from" (fun c => !Text.isBlank c) module.text.toList text := by
      refine ⟨[' '], " import".toList ++ ' ' :: word, ?_, by decide, module.nonempty,
        fun c mem => by simp [module.solid c mem], by rintro _ ⟨⟩; decide⟩
      rw [text_eq]
      rfl
    exact @only_of_traces _ "from" _ ⟨_, text_eq.symm⟩
      (quoted_of_unquoted unquoted _)
      no_constants.capturesOnly
      (.inr fun found find => (startsWithRun_of_fromPattern find).inj (fun c => by simp) starts)
      (.inl (by decide)) (.inl (by decide)) (.inl (by decide))
  · rw [text_eq]
    exact ⟨fromPattern, mem_importPatterns.mpr (.inr (.inr (by simp [anchoredPatterns]))),
      isFoundIn_fromPattern module.nonempty module.solid (by rintro _ ⟨⟩; decide)⟩

/-- The marks around the name of a header. -/
def headerMarks : List (Char × Char) := [('<', '>'), ('"', '"')]

/-- A header between one of the pairs of marks. -/
theorem importsOnly_header {module : ModuleName} {marks : Char × Char} (marked : marks ∈ headerMarks)
    (text_eq : text = "#include ".toList ++ marks.1 :: (module.text.toList ++ [marks.2])) :
    ImportsOnly module.text.toList text := by
  have marks_plain : ∀ marks ∈ headerMarks, marks.1 ∈ "<\"".toList ∧ marks.2 ∈ ">\"".toList ∧
      Text.isBlank marks.1 = false ∧ Text.isBlank marks.2 = false ∧ marks.1.isUpper = false := by
    decide
  obtain ⟨opens, closes, first_solid, last_solid, not_upper⟩ := marks_plain marks marked
  constructor
  · -- with brackets there are no quotes, and quotes enclose only the module
    have quoted : ∀ inner, Text.Enclosed isQuote isQuote inner text → inner = module.text.toList := by
      simp only [headerMarks, List.mem_cons, List.not_mem_nil, or_false] at marked
      rcases marked with rfl | rfl
      · have unquoted : ∀ c ∈ text, isQuote c = false := by
          rw [text_eq]
          exact List.forall_mem_append.mpr ⟨by decide, List.forall_mem_cons.mpr
            ⟨by decide, List.forall_mem_append.mpr ⟨module.unquoted, by decide⟩⟩⟩
        exact quoted_of_unquoted unquoted _
      · exact quoted_of_once (by decide) text_eq (by decide) (List.forall_mem_nil _)
    -- behind the blank stands the opening mark, which is no upper-case letter
    have no_constants : NoConstants text := by
      rw [text_eq]
      refine @NoConstants.word_blank "#include".toList _ (by decide) (.inr ?_) (.of_solid ?_)
      · rw [Text.stripLeft_of_head? (by rintro _ ⟨⟩; exact first_solid)]
        rintro _ ⟨⟩
        exact not_upper
      · exact List.forall_mem_cons.mpr ⟨first_solid, List.forall_mem_append.mpr
          ⟨module.solid, List.forall_mem_singleton.mpr last_solid⟩⟩
    refine @only_of_traces _ "#" _ ⟨_, text_eq.symm⟩ quoted no_constants.capturesOnly
      (.inl (by decide)) (.inl (by decide)) (.inl (by decide)) (.inr fun found find => ?_)
    exact (enclosed_of_headerPattern find).eq_of_once text_eq (List.contains_iff_mem.mpr closes)
      (by decide) module.unbracketed (List.forall_mem_nil _)
  · have unclosed : ∀ c ∈ module.text.toList, c ∉ ">\"".toList := by
      intro c mem listed
      have open_end := (module.unbracketed c mem).2
      rw [List.contains_iff_mem.mpr listed] at open_end
      cases open_end
    rw [text_eq]
    exact ⟨headerPattern, mem_importPatterns.mpr (.inr (.inr (by simp [anchoredPatterns]))),
      isFoundIn_headerPattern opens closes module.nonempty unclosed⟩

/-- A keyword with words behind it that are joined by double colons. -/
theorem importsOnly_constants {keyword : String} {path : List Char} (leads : keyword ∈ constantKeywords)
    (is_path : IsConstantPath path) (text_eq : text = keyword.toList ++ ' ' :: path) :
    ImportsOnly path text := by
  have keywords_plain : ∀ keyword ∈ constantKeywords, (∀ c ∈ keyword.toList, isQuote c = false) ∧
      (∀ c ∈ keyword.toList, Text.isBlank c = false) ∧
      (∀ start ∈ ["from", "import", "use", "#"], Text.StartUnlike keyword start) ∧
      (∀ other ∈ constantKeywords, other.toList <:+ keyword.toList → other = keyword) ∧
      ∃ c ∈ keyword.toList.head?, Text.isWordChar c = true := by
    decide
  obtain ⟨keyword_unquoted, solid, unlike, own_end, c, starts, c_word⟩ := keywords_plain keyword leads
  have path_unquoted : ∀ c ∈ path, isQuote c = false := by
    intro c mem
    rcases is_path.forall_mem c mem with word | rfl
    · exact not_isQuote_of_isWordChar word
    · decide
  obtain ⟨found, finds, captured⟩ := findAll_constantPattern starts c_word is_path
  rw [← text_eq] at finds
  constructor
  · have unquoted : ∀ c ∈ text, isQuote c = false := by
      rw [text_eq]
      exact List.forall_mem_append.mpr ⟨keyword_unquoted, List.forall_mem_cons.mpr
        ⟨by decide, path_unquoted⟩⟩
    refine only_of_traces ⟨_, text_eq.symm⟩
      (quoted_of_unquoted unquoted _) ?_
      (.inl (unlike _ (by decide))) (.inl (unlike _ (by decide))) (.inl (unlike _ (by decide)))
      (.inl (unlike _ (by decide)))
    intro other listed found' find
    by_cases same : other = keyword
    · rw [same, finds, List.mem_singleton] at find
      rw [find, captured]
    · -- the line does not begin with the other keyword, and there are no blanks further on
      refine absurd (keywordBefore_of_constantPattern listed find) ?_
      rw [text_eq]
      exact not_keywordBefore_word_blank listed solid
        (.inl fun ended => same (own_end other listed ended))
        (Text.KeywordBefore.not_of_solid is_path.isSolid.all)
  · exact ⟨constantPattern keyword, mem_importPatterns.mpr (.inr (.inl (List.mem_map_of_mem leads))),
      isFoundIn_of_findAll_eq_cons finds⟩

/-- The keyword `import` with a module behind it. -/
theorem importsOnly_dotted {module : List Char} {ending : String} (nonempty : module ≠ [])
    (all : ∀ c ∈ module, isModuleChar c = true) (ended : ending ∈ ["", ";"])
    (text_eq : text = "import ".toList ++ (module ++ ending.toList)) : ImportsOnly module text := by
  have ending_plain : ∀ ending ∈ ["", ";"], ∀ c ∈ ending.toList,
      Text.isBlank c = false ∧ isQuote c = false := by decide
  obtain ⟨found, finds, captured⟩ := findAll_modulePattern ended nonempty all
  rw [← text_eq] at finds
  constructor
  · have unquoted : ∀ c ∈ text, isQuote c = false := by
      rw [text_eq]
      exact List.forall_mem_append.mpr ⟨by decide, List.forall_mem_append.mpr
        ⟨fun c mem => not_isQuote_of_isModuleChar (all c mem),
          fun c mem => (ending_plain ending ended c mem).2⟩⟩
    -- there are no blanks behind the keyword, so no other keyword stands in front of a blank
    have solid : ∀ c ∈ module ++ ending.toList, Text.isBlank c = false :=
      List.forall_mem_append.mpr ⟨fun c mem => not_isBlank_of_isModuleChar (all c mem),
        fun c mem => (ending_plain ending ended c mem).1⟩
    have no_constants : NoConstants text := by
      rw [text_eq]
      exact @NoConstants.word_blank "import".toList _ (by decide) (.inl (by decide)) (.of_solid solid)
    refine @only_of_traces _ "import" _ ⟨_, text_eq.symm⟩
      (quoted_of_unquoted unquoted _)
      no_constants.capturesOnly (.inl (by decide)) (.inr ?_) (.inl (by decide)) (.inl (by decide))
    rw [CapturesOnly, finds]
    exact List.forall_mem_singleton.mpr captured
  · exact ⟨modulePattern, mem_importPatterns.mpr (.inr (.inr (by simp [anchoredPatterns]))),
      isFoundIn_of_findAll_eq_cons finds⟩

/-- The keyword `use` with a module in front of a semicolon behind it. -/
theorem importsOnly_used {module : List Char} (nonempty : module ≠ [])
    (all : ∀ c ∈ module, isUsedChar c = true) (text_eq : text = "use ".toList ++ (module ++ [';'])) :
    ImportsOnly module text := by
  have module_unquoted : ∀ c ∈ module, isQuote c = false := by
    intro c mem
    have used := all c mem
    rw [isUsedChar, Bool.or_eq_true, beq_iff_eq] at used
    rcases used with word | rfl
    · exact not_isQuote_of_isWordChar word
    · decide
  constructor
  · have unquoted : ∀ c ∈ text, isQuote c = false := by
      rw [text_eq]
      exact List.forall_mem_append.mpr ⟨by decide, List.forall_mem_append.mpr
        ⟨module_unquoted, by decide⟩⟩
    have solid : ∀ c ∈ module ++ [';'], Text.isBlank c = false :=
      List.forall_mem_append.mpr ⟨fun c mem => not_isBlank_of_isUsedChar (all c mem), by decide⟩
    have no_constants : NoConstants text := by
      rw [text_eq]
      exact @NoConstants.word_blank "use".toList _ (by decide) (.inl (by decide)) (.of_solid solid)
    have starts : StartsWithRun "use" isUsedChar module text :=
      ⟨[' '], [';'], text_eq, by decide, nonempty, all, by rintro _ ⟨⟩; decide⟩
    exact @only_of_traces _ "use" _ ⟨_, text_eq.symm⟩
      (quoted_of_unquoted unquoted _)
      no_constants.capturesOnly (.inl (by decide)) (.inl (by decide))
      (.inr fun found find => (startsWithRun_of_usePattern find).inj
        (fun c => not_isBlank_of_isUsedChar) starts) (.inl (by decide))
  · rw [text_eq]
    exact ⟨usePattern, mem_importPatterns.mpr (.inr (.inr (by simp [anchoredPatterns]))),
      isFoundIn_usePattern nonempty all⟩

end TraceInquest
