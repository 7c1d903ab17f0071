import TraceInquest.Proofs.Source.DeclarationMatches
import TraceInquest.Proofs.Source.FirstFinds

/-! # What the patterns find in a declaration

A declaration is recognised by one pattern, and whatever the other patterns find in it is the
declared name too, or a reserved word. The traces of the patterns tell which finds there can be.

* **`FunctionName`**, **`ArgumentText`**, **`TypeWord`** — what a declaration is made of.
* **`DeclaresOnly name text`** — what the patterns find in a declaration.
* **`only_of_unassigned`**, **`OnlyAssigns`** — what they find in a text without assignments, and in
  one where names are bound in no other way.
* **`declaresOnly_definition`**, **`declaresOnly_callLine`**, **`declaresOnly_typed`**, … — that
  they find no more, for each way to declare a name. -/

namespace TraceInquest

open Pattern

/-! ## The parts of a declaration -/

/-- The name of a function: a word that is not reserved. -/
structure FunctionName where
  /-- The word. -/
  text : String
  is_word : Text.IsWord text.toList
  allowed : text ∉ nonDeclarationNames

/-- What stands between the parentheses of a declaration: the arguments or the receiver. -/
structure ArgumentText where
  /-- The text between the parentheses. -/
  text : String
  is_line : Text.IsLine text
  plain : ∀ c ∈ ['=', '(', ')', ';'], c ∉ text.toList
  no_def : ¬"def".toList <:+: text.toList
  no_function : ¬"function".toList <:+: text.toList

/-- A type in front of a name: word characters, but not one of the words that cannot be a type. -/
structure TypeWord where
  /-- The word. -/
  text : String
  all : ∀ c ∈ text.toList, Text.isWordChar c = true
  allowed : text ∉ nonTypeWords

/-! ## What the patterns find -/

/-- Whether every find of the patterns of declarations in a text is some name or a reserved word,
and the first find of one of them is the name. -/
structure DeclaresOnly (name text : List Char) : Prop where
  only : ∀ pattern ∈ declarationPatterns, ∀ found ∈ pattern.findAll text,
    found.captured .name = name ∨ found.IsReserved
  first : ∃ pattern ∈ declarationPatterns, ∃ found, pattern.find? text = some found ∧
    found.captured .name = name

variable {text front word behind : List Char}

/-- Where nothing is assigned, three of the patterns find nothing. -/
theorem only_of_unassigned {allowed : Found Captured → Prop} (unassigned : '=' ∉ text)
    (defined : ∀ found ∈ defPattern.findAll text, allowed found)
    (valued : ∀ found ∈ functionValuePattern.findAll text, allowed found)
    (called : ∀ pattern ∈ callPatterns, ∀ found ∈ pattern.findAll text, allowed found) :
    ∀ pattern ∈ declarationPatterns, ∀ found ∈ pattern.findAll text, allowed found := by
  intro pattern listed found find
  rcases mem_declarationPatterns.mp listed with rfl | rfl | rfl | rfl | rfl | calls
  · exact defined found find
  · exact absurd (assignedTo_of_blockPattern find).mem unassigned
  · exact absurd (assignedTo_of_lambdaPattern find).mem unassigned
  · exact valued found find
  · exact absurd (assignedTo_of_arrowPattern find).mem unassigned
  · exact called pattern calls found find

/-- Whether a text has no definition, no name with a function as its value, and no call. Then only
equals signs bind names in it. -/
structure OnlyAssigns (text : List Char) : Prop where
  undefined : ¬Text.KeywordBefore "def" Text.isWordChar text
  unvalued : ¬HasFunctionValue text
  uncalled : ∀ front word behind, ¬CallAt text front word behind

/-- Where only equals signs bind names, three of the patterns find something. -/
theorem OnlyAssigns.only {allowed : Found Captured → Prop} (assigns : OnlyAssigns text)
    (blocks : ∀ found ∈ blockPattern.findAll text, allowed found)
    (lambdas : ∀ found ∈ lambdaPattern.findAll text, allowed found)
    (arrows : ∀ found ∈ arrowPattern.findAll text, allowed found) :
    ∀ pattern ∈ declarationPatterns, ∀ found ∈ pattern.findAll text, allowed found := by
  intro pattern listed found find
  rcases mem_declarationPatterns.mp listed with rfl | rfl | rfl | rfl | rfl | calls
  · exact absurd (keywordBefore_of_defPattern find) assigns.undefined
  · exact blocks found find
  · exact lambdas found find
  · exact absurd (hasFunctionValue_of_functionValuePattern find) assigns.unvalued
  · exact arrows found find
  · obtain ⟨front, behind, call, -⟩ := exists_callAt calls find
    exact absurd call (assigns.uncalled front _ behind)

/-! ## Arguments -/

/-- Behind the parenthesis that opens the arguments no function is defined. -/
theorem ArgumentText.not_keywordBefore (args : ArgumentText) {tail : List Char}
    (no_def : ¬"def".toList <:+: tail) :
    ¬Text.KeywordBefore "def" Text.isWordChar (args.text.toList ++ ')' :: tail) := by
  intro stands
  rcases stands.of_append_cons (by decide) (by decide) (by decide) with inside | behind
  · exact args.no_def inside.infix_text
  · exact no_def behind.infix_text

/-- Behind the parenthesis that opens the arguments no name is bound to a function. -/
theorem ArgumentText.not_hasFunctionValue (args : ArgumentText) {tail : List Char}
    (no_function : ¬"function".toList <:+: tail) :
    ¬HasFunctionValue (args.text.toList ++ ')' :: tail) := by
  intro stands
  rcases stands.of_append_cons (by decide) (by decide) (by decide) with inside | behind
  · exact args.no_function inside.infix_text
  · exact no_function behind.infix_text

theorem ArgumentText.not_mem (args : ArgumentText) {c : Char} (sign : c ∈ ['=', '(', ')', ';'])
    {tail : List Char} (absent : c ∉ ')' :: tail) : c ∉ args.text.toList ++ ')' :: tail := by
  rw [List.mem_append, not_or]
  exact ⟨args.plain c sign, absent⟩

/-- A word that is called in a text with one opening parenthesis is the word in front of it. -/
theorem CallAt.append_eq (call : CallAt text front word behind) {head tail : List Char}
    (text_eq : text = head ++ '(' :: tail) (absent : '(' ∉ head) (once : '(' ∉ tail) :
    ∃ gap, front ++ word ++ gap = head ∧ ∀ c ∈ gap, Text.isBlank c = true := by
  obtain ⟨gap, call_eq, blank⟩ := call.text
  rw [text_eq] at call_eq
  exact ⟨gap, (Text.append_cons_inj_of_once absent once call_eq.symm).1, blank⟩

theorem CallAt.word_eq (call : CallAt text front word behind) {head name gap' : List Char}
    (text_eq : ∃ gap, front ++ word ++ gap = head ++ name ++ gap' ∧ ∀ c ∈ gap, Text.isBlank c = true)
    (is_word : Text.IsWord name) (outside : Text.EndsOutside head)
    (blank' : ∀ c ∈ gap', Text.isBlank c = true) : word = name := by
  obtain ⟨gap, same, blank⟩ := text_eq
  have not_word {gap : List Char} (blank : ∀ c ∈ gap, Text.isBlank c = true) :
      ∀ c ∈ gap, Text.isWordChar c = false := fun c mem => Text.not_isWordChar_of_isBlank (blank c mem)
  rw [← Text.lastWord_append call.is_word call.outside (not_word blank), same,
    Text.lastWord_append is_word outside (not_word blank')]

/-! ## Lines with one call -/

/-- A word behind a blank has no keyword with something behind it. -/
theorem not_keywordBefore_blankName (is_word : Text.IsWord word) :
    ¬Text.KeywordBefore "def" Text.isWordChar (' ' :: word) := by
  intro stands
  rcases @Text.KeywordBefore.of_append_blank _ _ [] word ' ' (by decide) (by decide) stands with
    in_front | in_word | ⟨⟨front, gap, same, -⟩, -⟩
  · exact Text.KeywordBefore.not_of_forall_isWordChar (by decide) in_front
  · exact Text.KeywordBefore.not_of_forall_isWordChar is_word.all in_word
  · rw [List.append_assoc] at same
    exact absurd (List.append_eq_nil_iff.mp (List.append_eq_nil_iff.mp same.symm).2).1 (by decide)

/-- What stands behind the arguments of a declaration. -/
def callTails : List (List Char) := ["".toList, ":".toList, " \x7b".toList]

/-- A line with one call captures the name that is called, if the keyword `def` does. -/
theorem only_callLine {head : List Char} {mark : String} {name : FunctionName} {args : ArgumentText}
    {tail : List Char} (plain : ∀ c ∈ ['(', '=', ':'], c ∉ head) (outside : Text.EndsOutside head)
    (marked : mark ∈ ["", "!", "?"]) (ended : tail ∈ callTails)
    (text_eq : text =
      head ++ (name.text.toList ++ (mark.toList ++ '(' :: (args.text.toList ++ ')' :: tail))))
    (defined : ∀ found ∈ defPattern.findAll text,
      found.captured .name = name.text.toList ++ mark.toList) :
    ∀ pattern ∈ declarationPatterns, ∀ found ∈ pattern.findAll text,
      found.captured .name = name.text.toList ++ mark.toList := by
  have tail_plain : '(' ∉ ')' :: tail ∧ '=' ∉ ')' :: tail ∧ ¬"function".toList <:+: tail := by
    simp only [callTails, List.mem_cons, List.not_mem_nil, or_false] at ended
    rcases ended with rfl | rfl | rfl <;> decide
  have signs : ∀ c ∈ ['(', '=', ':'], Text.isWordChar c = false ∧
      ∀ mark ∈ ["", "!", "?"], c ∉ mark.toList := by decide
  have front_plain : ∀ c ∈ ['(', '=', ':'], c ∉ head ++ name.text.toList ++ mark.toList := by
    intro c sign
    rw [List.mem_append, List.mem_append, not_or, not_or]
    exact ⟨⟨plain c sign, name.is_word.not_mem (signs c sign).1⟩, (signs c sign).2 mark marked⟩
  have cut : text = head ++ name.text.toList ++ mark.toList ++
      '(' :: (args.text.toList ++ ')' :: tail) := by
    rw [text_eq]
    simp only [List.append_assoc]
  have unassigned : '=' ∉ text := by
    rw [cut, List.mem_append, List.mem_cons, not_or, not_or]
    exact ⟨front_plain '=' (by decide), by decide, args.not_mem (by decide) tail_plain.2.1⟩
  refine only_of_unassigned unassigned defined (fun found find => ?_)
    fun pattern calls found find => ?_
  · have stands := hasFunctionValue_of_functionValuePattern find
    rw [cut] at stands
    rcases stands.of_append_cons (by decide) (by decide) (by decide) with in_front | in_args
    · exact absurd in_front.mem (front_plain ':' (by decide))
    · exact absurd in_args (args.not_hasFunctionValue tail_plain.2.2)
  · obtain ⟨front, behind, call, -⟩ := exists_callAt calls find
    have same := call.append_eq cut (front_plain '(' (by decide))
      (args.not_mem (by decide) tail_plain.1)
    simp only [List.mem_cons, List.not_mem_nil, or_false] at marked
    -- a mark keeps the name from being called
    rcases marked with rfl | rfl | rfl
    · rw [call.word_eq same name.is_word outside (by rintro _ ⟨⟩)]
      exact (List.append_nil _).symm
    · obtain ⟨gap, same, blank⟩ := same
      exact absurd same (Text.append_word_ne call.is_word blank (by decide) (by decide)
        (by rintro _ ⟨⟩))
    · obtain ⟨gap, same, blank⟩ := same
      exact absurd same (Text.append_word_ne call.is_word blank (by decide) (by decide)
        (by rintro _ ⟨⟩))

/-- A pattern that finds one name alone finds it first. -/
theorem first_of_isFoundIn {pattern : Pattern Captured} {name : List Char}
    (listed : pattern ∈ declarationPatterns) (is_found : pattern.isFoundIn text = true)
    (only : ∀ found ∈ pattern.findAll text, found.captured .name = name) :
    ∃ pattern ∈ declarationPatterns, ∃ found, pattern.find? text = some found ∧
      found.captured .name = name := by
  obtain ⟨found, find⟩ := Option.isSome_iff_exists.mp is_found
  exact ⟨pattern, listed, found, find, only found (mem_findAll_of_find? find)⟩

/-- A line in which the keyword `def` stands in front of the name. -/
theorem declaresOnly_definition {lead receiver mark : String} {name : FunctionName}
    {args : ArgumentText} {tail : List Char} (led : lead ∈ ["", "async "])
    (received : receiver ∈ ["", "self."]) (marked : mark ∈ ["", "!", "?"])
    (ended : tail ∈ callTails)
    (text_eq : text = lead.toList ++ ("def ".toList ++ (receiver.toList ++ (name.text.toList ++
      (mark.toList ++ '(' :: (args.text.toList ++ ')' :: tail)))))) :
    DeclaresOnly (name.text.toList ++ mark.toList) text := by
  have no_def : ¬"def".toList <:+: args.text.toList ++ ')' :: tail := by
    intro in_rest
    simp only [callTails, List.mem_cons, List.not_mem_nil, or_false] at ended
    rcases Text.infix_of_infix_append_cons (by decide) in_rest with in_args | in_tail
    · exact args.no_def in_args
    · rcases ended with rfl | rfl | rfl <;> revert in_tail <;> decide
  obtain ⟨found, finds, captured⟩ :=
    findAll_defPattern led received marked name.is_word no_def
  rw [← text_eq] at finds
  have head_plain : (∀ c ∈ ['(', '=', ':'], c ∉ lead.toList ++ "def ".toList ++ receiver.toList) ∧
      Text.EndsOutside (lead.toList ++ "def ".toList ++ receiver.toList) := by
    simp only [List.mem_cons, List.not_mem_nil, or_false] at led received
    rcases led with rfl | rfl <;> rcases received with rfl | rfl <;>
      exact ⟨by decide, by rintro _ ⟨⟩; decide⟩
  have only := @only_callLine text _ mark name args tail head_plain.1 head_plain.2 marked ended
    (by rw [text_eq]; simp only [List.append_assoc])
    (by
      rw [finds]
      exact List.forall_mem_singleton.mpr captured)
  refine ⟨fun pattern listed found find => .inl (only pattern listed found find), defPattern,
    mem_declarationPatterns.mpr (.inl rfl), found, find?_of_findAll_eq_cons finds, captured⟩

/-- A line with one call and without the keyword `def` in front of a name. -/
theorem declaresOnly_callLine {head : List Char} {name : FunctionName} {args : ArgumentText}
    {tail : List Char} {pattern : Pattern Captured} (plain : ∀ c ∈ ['(', '=', ':'], c ∉ head)
    (outside : Text.EndsOutside head) (ended : tail ∈ callTails)
    (undefined : ¬Text.KeywordBefore "def" Text.isWordChar (head ++ name.text.toList))
    (text_eq : text = head ++ (name.text.toList ++ '(' :: (args.text.toList ++ ')' :: tail)))
    (listed : pattern ∈ declarationPatterns) (is_found : pattern.isFoundIn text = true) :
    DeclaresOnly name.text.toList text := by
  have no_def : ¬"def".toList <:+: tail := by
    simp only [callTails, List.mem_cons, List.not_mem_nil, or_false] at ended
    rcases ended with rfl | rfl | rfl <;> decide
  have defined : ∀ found ∈ defPattern.findAll text,
      found.captured .name = name.text.toList ++ "".toList := by
    intro found find
    have stands := keywordBefore_of_defPattern find
    rw [text_eq, ← List.append_assoc] at stands
    rcases stands.of_append_cons (by decide) (by decide) (by decide) with in_front | in_args
    · exact absurd in_front undefined
    · exact absurd in_args (args.not_keywordBefore no_def)
  have only := @only_callLine text _ "" name args tail plain outside (by decide) ended text_eq defined
  rw [show "".toList = [] from rfl, List.append_nil] at only
  exact ⟨fun pattern listed found find => .inl (only pattern listed found find),
    first_of_isFoundIn listed is_found (only pattern listed)⟩

/-- A line that begins with the name. -/
theorem declaresOnly_method {name : FunctionName} {args : ArgumentText}
    (text_eq : text = name.text.toList ++ '(' :: (args.text.toList ++ ')' :: " \x7b".toList)) :
    DeclaresOnly name.text.toList text := by
  have is_found : methodPattern.isFoundIn text = true := by
    rw [text_eq]
    exact isFoundIn_methodPattern name.is_word (args.plain ')' (by decide))
  exact @declaresOnly_callLine text [] name args _ methodPattern (by decide) Text.endsOutside_nil
    (by decide) (Text.KeywordBefore.not_of_forall_isWordChar name.is_word.all) text_eq
    (mem_declarationPatterns_of_call (by simp [callPatterns])) is_found

/-- A line in which a type stands in front of the name. The keyword `def` is one of the types. -/
theorem declaresOnly_typed {type : TypeWord} {name : FunctionName} {args : ArgumentText}
    (nonempty : type.text.toList ≠ [])
    (text_eq : text = type.text.toList ++ ' ' ::
      (name.text.toList ++ '(' :: (args.text.toList ++ ')' :: " \x7b".toList))) :
    DeclaresOnly name.text.toList text := by
  have is_type : Text.IsWord type.text.toList := ⟨nonempty, type.all⟩
  by_cases is_def : type.text = "def"
  · have only := @declaresOnly_definition text "" "" "" name args _ (by decide) (by decide)
      (by decide) (by decide : " \x7b".toList ∈ callTails) (by rw [text_eq, is_def]; rfl)
    rwa [show "".toList = [] from rfl, List.append_nil] at only
  · have undefined :
        ¬Text.KeywordBefore "def" Text.isWordChar (type.text.toList ++ [' '] ++ name.text.toList) := by
      rw [← List.append_cons]
      intro stands
      rcases stands.of_append_blank (by decide) (by decide) with in_type | in_name | between
      · exact Text.KeywordBefore.not_of_forall_isWordChar is_type.all in_type
      · exact Text.KeywordBefore.not_of_forall_isWordChar name.is_word.all in_name
      · -- the keyword ends the type, so it is the type
        obtain ⟨⟨front, gap, type_eq, outside, blank⟩, -⟩ := between
        have is_word : Text.IsWord "def".toList := ⟨by decide, by decide⟩
        have keyword := Text.lastWord_append is_word outside fun c mem =>
          Text.not_isWordChar_of_isBlank (blank c mem)
        have whole := @Text.lastWord_append [] _ [] is_type Text.endsOutside_nil (by rintro _ ⟨⟩)
        rw [List.nil_append, List.append_nil, type_eq, keyword, ← type_eq] at whole
        exact is_def (String.toList_inj.mp whole.symm)
    have is_found : typedPattern.isFoundIn text = true := by
      rw [text_eq]
      refine isFoundIn_typedPattern is_type (by rw [String.ofList_toList]; exact type.allowed)
        name.is_word (args.not_mem (by decide) (by decide))
    refine @declaresOnly_callLine text (type.text.toList ++ [' ']) name args _ typedPattern ?_ ?_
      (by decide : " \x7b".toList ∈ callTails) undefined (by rw [text_eq, List.append_cons])
      (mem_declarationPatterns_of_call (by simp [callPatterns])) is_found
    · intro c sign
      have refused : ∀ c ∈ ['(', '=', ':'], Text.isWordChar c = false ∧ c ∉ [' '] := by decide
      rw [List.mem_append, not_or]
      exact ⟨is_type.not_mem (refused c sign).1, (refused c sign).2⟩
    · exact (Text.endsOutside_of_forall (by decide)).append_left (by decide) _

/-! ## Lines with a receiver -/

section Receiver

variable {name : FunctionName} {receiver args : ArgumentText}

theorem FunctionName.not_mem_blank_cons (name : FunctionName) :
    ∀ c ∈ ['(', '=', ':'], c ∉ ' ' :: name.text.toList := by
  intro c sign
  have refused : ∀ c ∈ ['(', '=', ':'], Text.isWordChar c = false ∧ c ≠ ' ' := by decide
  rw [List.mem_cons, not_or]
  exact ⟨(refused c sign).2, name.is_word.not_mem (refused c sign).1⟩

/-- The word in front of the receiver is captured only if nothing is in front of it and a body
follows. -/
theorem not_callAt_func (call : CallAt text front word behind) (extra : front ≠ [] ∨ HasBody behind)
    {gap : List Char} (front_eq : front ++ word ++ gap = "func ".toList)
    (blank : ∀ c ∈ gap, Text.isBlank c = true)
    (behind_eq : behind = receiver.text.toList ++ ')' :: ' ' ::
      (name.text.toList ++ '(' :: (args.text.toList ++ ')' :: " \x7b".toList))) : False := by
  have front_word : front ++ word = "func".toList := by
    rw [← Text.stripRight_append_word call.is_word blank, front_eq]
    decide
  have no_front : front = [] := by
    refine @Text.IsWord.eq_nil_of_append front word ?_ call.outside
    rw [front_word]
    exact ⟨by decide, by decide⟩
  obtain ⟨arguments, gap', body, behind_eq', absent, blank'⟩ :=
    extra.resolve_left (not_not.mpr no_front)
  -- the receiver ends at the first closing parenthesis, and a name follows it
  have rest_eq := (Text.append_cons_inj absent (receiver.plain ')' (by decide))
    (behind_eq'.symm.trans behind_eq)).2
  obtain ⟨c, others, name_eq⟩ := List.exists_cons_of_ne_nil name.is_word.nonempty
  have c_word := name.is_word.all c (by rw [name_eq]; exact List.mem_cons_self)
  have brace := Text.stripLeft_append_cons blank' (by decide : Text.isBlank '\x7b' = false) body
  rw [rest_eq, name_eq] at brace
  have starts := Text.stripLeft_space_cons (Text.not_isBlank_of_isWordChar c_word)
    (others ++ '(' :: (args.text.toList ++ ')' :: " \x7b".toList))
  rw [← (List.cons.inj (brace.symm.trans starts)).1] at c_word
  exact absurd c_word (by decide)

variable (text_eq : text = "func ".toList ++ '(' :: (receiver.text.toList ++ ')' :: ' ' ::
  (name.text.toList ++ '(' :: (args.text.toList ++ ')' :: " \x7b".toList))))
include text_eq

/-- The word that the patterns capture in front of a parenthesis is the name. -/
theorem CallAt.eq_of_receiver (call : CallAt text front word behind)
    (extra : front ≠ [] ∨ HasBody behind) : word = name.text.toList := by
  obtain ⟨gap, same, blank⟩ := call.text
  rw [text_eq] at same
  rcases Text.append_cons_cases (by decide) same.symm with
    ⟨front_eq, -, behind_eq⟩ | ⟨between, front_eq, rest_eq⟩
  · exact (not_callAt_func call extra front_eq blank behind_eq).elim
  · -- behind the receiver there is one parenthesis, and the name is in front of it
    have absent : '(' ∉ receiver.text.toList ++ ')' :: ' ' :: name.text.toList := by
      rw [List.mem_append, List.mem_cons, not_or, not_or]
      exact ⟨receiver.plain '(' (by decide), by decide, name.not_mem_blank_cons '(' (by decide)⟩
    have cut : between ++ '(' :: behind = receiver.text.toList ++ ')' :: ' ' :: name.text.toList ++
        '(' :: (args.text.toList ++ ')' :: " \x7b".toList) := by
      rw [← rest_eq]
      simp
    rw [(Text.append_cons_inj_of_once absent (args.not_mem (by decide) (by decide)) cut).1]
      at front_eq
    refine call.word_eq ⟨gap, ?_, blank⟩ name.is_word
      ((Text.endsOutside_of_forall (by decide : ∀ c ∈ ") ".toList, _)).append_left (by decide)
        ("func (".toList ++ receiver.text.toList)) (List.forall_mem_nil _)
    rw [front_eq]
    simp only [List.append_assoc, List.append_nil]
    rfl

theorem unassigned_of_receiver : '=' ∉ text := by
  have in_args := args.not_mem (by decide : '=' ∈ ['=', '(', ')', ';'])
    (by decide : '=' ∉ ')' :: " \x7b".toList)
  have in_receiver := receiver.plain '=' (by decide)
  have in_name := name.not_mem_blank_cons '=' (by decide)
  rw [text_eq]
  simp only [List.mem_append, List.mem_cons, not_or] at in_args in_receiver in_name ⊢
  simp [in_args, in_receiver, in_name]

theorem not_keywordBefore_of_receiver : ¬Text.KeywordBefore "def" Text.isWordChar text := by
  intro stands
  rw [text_eq] at stands
  rcases stands.of_append_cons (by decide) (by decide) (by decide) with in_func | stands
  · exact absurd in_func.infix_text (by decide)
  rcases stands.of_append_cons (by decide) (by decide) (by decide) with in_receiver | stands
  · exact receiver.no_def in_receiver.infix_text
  rw [← List.cons_append] at stands
  rcases stands.of_append_cons (by decide) (by decide) (by decide) with in_name | in_args
  · exact not_keywordBefore_blankName name.is_word in_name
  · exact args.not_keywordBefore (by decide) in_args

theorem not_hasFunctionValue_of_receiver : ¬HasFunctionValue text := by
  intro stands
  rw [text_eq] at stands
  rcases stands.of_append_cons (by decide) (by decide) (by decide) with in_func | stands
  · exact absurd in_func.mem (by decide)
  rcases stands.of_append_cons (by decide) (by decide) (by decide) with in_receiver | stands
  · exact receiver.no_function in_receiver.infix_text
  rw [← List.cons_append] at stands
  rcases stands.of_append_cons (by decide) (by decide) (by decide) with in_name | in_args
  · exact name.not_mem_blank_cons ':' (by decide) in_name.mem
  · exact args.not_hasFunctionValue (by decide) in_args

/-- A line in which a receiver stands in front of the name. -/
theorem declaresOnly_receiver : DeclaresOnly name.text.toList text := by
  have is_found : funcPattern.isFoundIn text = true := by
    rw [text_eq]
    exact isFoundIn_funcPattern name.is_word (receiver.plain ')' (by decide))
  have calls_name : ∀ pattern ∈ callPatterns, ∀ found ∈ pattern.findAll text,
      found.captured .name = name.text.toList := by
    intro pattern calls found find
    obtain ⟨front, behind, call, extra⟩ := exists_callAt calls find
    exact call.eq_of_receiver text_eq extra
  refine ⟨only_of_unassigned (unassigned_of_receiver text_eq) (fun found find => ?_)
    (fun found find => ?_) fun pattern calls found find => .inl (calls_name pattern calls found find),
    first_of_isFoundIn (mem_declarationPatterns_of_call (by simp [callPatterns])) is_found
      (calls_name _ (by simp [callPatterns]))⟩
  · exact absurd (keywordBefore_of_defPattern find) (not_keywordBefore_of_receiver text_eq)
  · exact absurd (hasFunctionValue_of_functionValuePattern find)
      (not_hasFunctionValue_of_receiver text_eq)

end Receiver

/-! ## Lines that bind a name -/

/-- A word in front of a blank has no keyword with something behind it. -/
theorem not_keywordBefore_nameBlank (is_word : Text.IsWord word) :
    ¬Text.KeywordBefore "def" Text.isWordChar (word ++ [' ']) := by
  intro stands
  rcases stands.of_append_blank (by decide) (by decide) with
    in_word | behind | ⟨-, gap, c, back, same, -⟩
  · exact Text.KeywordBefore.not_of_forall_isWordChar is_word.all in_word
  · exact Text.KeywordBefore.not_of_forall_isWordChar (by decide) behind
  · exact absurd (List.append_eq_nil_iff.mp same.symm).2 (List.cons_ne_nil c back)

theorem not_keywordBefore_const (is_word : Text.IsWord word) :
    ¬Text.KeywordBefore "def" Text.isWordChar ("const ".toList ++ word ++ " ".toList) := by
  have cut : "const ".toList ++ word ++ " ".toList = "const".toList ++ ' ' :: (word ++ [' ']) := by
    simp only [List.append_assoc]
    rfl
  rw [cut]
  intro stands
  rcases stands.of_append_blank (by decide) (by decide) with
    in_const | in_name | ⟨⟨front, gap, same, -⟩, -⟩
  · exact Text.KeywordBefore.not_of_forall_isWordChar (by decide) in_const
  · exact not_keywordBefore_nameBlank is_word in_name
  · have in_const : "def".toList <:+: "const".toList := ⟨front, gap, same.symm⟩
    exact absurd in_const (by decide)

/-! ### Functions as values -/

section FunctionValue

variable {name : FunctionName} {args : ArgumentText}

variable (text_eq : text = name.text.toList ++
  (": function (".toList ++ (args.text.toList ++ ')' :: " \x7b".toList)))
include text_eq

theorem unassigned_of_functionValue : '=' ∉ text := by
  rw [text_eq, List.mem_append, List.mem_append, not_or, not_or]
  exact ⟨name.is_word.not_mem (by decide), by decide, args.not_mem (by decide) (by decide)⟩

theorem not_keywordBefore_of_functionValue : ¬Text.KeywordBefore "def" Text.isWordChar text := by
  intro stands
  have cut : text = name.text.toList ++ ':' :: (" function ".toList ++
      '(' :: (args.text.toList ++ ')' :: " \x7b".toList)) := text_eq
  rw [cut] at stands
  rcases stands.of_append_cons (by decide) (by decide) (by decide) with in_name | stands
  · exact Text.KeywordBefore.not_of_forall_isWordChar name.is_word.all in_name
  rcases stands.of_append_cons (by decide) (by decide) (by decide) with in_value | in_args
  · exact absurd in_value.infix_text (by decide +kernel)
  · exact args.not_keywordBefore (by decide) in_args

/-- What is called is the keyword. -/
theorem CallAt.eq_of_functionValue (call : CallAt text front word behind) :
    word = "function".toList := by
  have cut : text = name.text.toList ++ ": ".toList ++ "function".toList ++ " ".toList ++
      '(' :: (args.text.toList ++ ')' :: " \x7b".toList) := by
    rw [text_eq]
    simp only [List.append_assoc]
    rfl
  have absent : '(' ∉ name.text.toList ++ ": ".toList ++ "function".toList ++ " ".toList := by
    simp only [List.mem_append, not_or]
    exact ⟨⟨⟨name.is_word.not_mem (by decide), by decide⟩, by decide⟩, by decide⟩
  have same := call.append_eq cut absent (args.not_mem (by decide) (by decide))
  exact call.word_eq same ⟨by decide, by decide⟩
    ((Text.endsOutside_of_forall (by decide)).append_left (by decide) _) (by decide)

/-- A line in which a function is the value of a name. -/
theorem declaresOnly_functionValue : DeclaresOnly name.text.toList text := by
  have no_function : ¬"function".toList <:+: args.text.toList ++ ')' :: " \x7b".toList := by
    intro in_rest
    rcases Text.infix_of_infix_append_cons (by decide) in_rest with in_args | in_tail
    · exact args.no_function in_args
    · exact absurd in_tail (by decide)
  obtain ⟨found, finds, captured⟩ := findAll_functionValuePattern name.is_word no_function
  rw [← text_eq] at finds
  refine ⟨only_of_unassigned (unassigned_of_functionValue text_eq) (fun found find => ?_)
    (fun found find => ?_) fun pattern calls found find => ?_, functionValuePattern,
    mem_declarationPatterns.mpr (by simp), found, find?_of_findAll_eq_cons finds, captured⟩
  · exact absurd (keywordBefore_of_defPattern find) (not_keywordBefore_of_functionValue text_eq)
  · obtain rfl := List.mem_singleton.mp (finds ▸ find)
    exact .inl captured
  · -- the keyword is a reserved word
    obtain ⟨front, behind, call, -⟩ := exists_callAt calls find
    refine .inr ?_
    rw [Found.IsReserved, call.eq_of_functionValue text_eq, String.ofList_toList]
    decide

end FunctionValue

/-! ### Assignments -/

/-- A text with a name and an equals sign has no definition if what is behind them has none. -/
theorem not_keywordBefore_assignment {front behind : List Char}
    (in_front : ¬Text.KeywordBefore "def" Text.isWordChar front)
    (no_def : ¬"def".toList <:+: behind) :
    ¬Text.KeywordBefore "def" Text.isWordChar (front ++ '=' :: behind) := by
  intro stands
  rcases stands.of_append_cons (by decide) (by decide) (by decide) with stands | stands
  · exact in_front stands
  · exact no_def stands.infix_text

/-- Behind another sign than a word, arguments are not those of a call. -/
theorem onlyAssigns_of_sign {head gap tail : List Char} {sign : Char} {args : ArgumentText}
    (text_eq : text = head ++ sign :: gap ++ '(' :: (args.text.toList ++ ')' :: tail))
    (is_sign : Text.isBlank sign = false ∧ Text.isWordChar sign = false)
    (gap_blank : ∀ c ∈ gap, Text.isBlank c = true)
    (plain : ∀ c ∈ ['(', ':'], c ∉ head ++ sign :: gap)
    (undefined : ¬Text.KeywordBefore "def" Text.isWordChar (head ++ sign :: gap))
    (tail_plain : '(' ∉ ')' :: tail ∧ ¬"def".toList <:+: tail ∧ ¬"function".toList <:+: tail) :
    OnlyAssigns text where
  undefined stands := by
    rw [text_eq] at stands
    rcases stands.of_append_cons (by decide) (by decide) (by decide) with in_front | in_args
    · exact undefined in_front
    · exact args.not_keywordBefore tail_plain.2.1 in_args
  unvalued stands := by
    rw [text_eq] at stands
    rcases stands.of_append_cons (by decide) (by decide) (by decide) with in_front | in_args
    · exact plain ':' (by decide) in_front.mem
    · exact args.not_hasFunctionValue tail_plain.2.2 in_args
  uncalled front word behind call := by
    -- the only parenthesis that opens has the sign in front of it, and not the word
    obtain ⟨gap', same, blank⟩ := call.append_eq text_eq (plain '(' (by decide))
      (args.not_mem (by decide) tail_plain.1)
    exact Text.append_word_ne call.is_word blank is_sign.1 is_sign.2 gap_blank same

/-- A name and fixed texts around it hold no sign that the texts do not hold. -/
theorem FunctionName.not_mem_between (name : FunctionName) {c : Char} {front behind : List Char}
    (refused : Text.isWordChar c = false ∧ c ∉ front ∧ c ∉ behind) :
    c ∉ front ++ name.text.toList ++ behind := by
  rw [List.mem_append, List.mem_append, not_or, not_or]
  exact ⟨⟨refused.2.1, name.is_word.not_mem refused.1⟩, refused.2.2⟩

/-! ### Arrow functions -/

section Arrow

variable {name : FunctionName} {args : ArgumentText}

variable (text_eq : text = "const ".toList ++ (name.text.toList ++
  (" = (".toList ++ (args.text.toList ++ ") => \x7b".toList))))
include text_eq

/-- Behind the first of the two equals signs of an arrow function is a parenthesis, behind the second
one the head of the arrow. -/
theorem head?_behind_of_arrow {before : List Char} (same : text = before ++ '=' :: behind) :
    (before = "const ".toList ++ name.text.toList ++ [' '] ∧
      (Text.stripLeft behind).head? = some '(') ∨ (Text.stripLeft behind).head? = some '>' := by
  have cut : text = "const ".toList ++ name.text.toList ++ [' '] ++
      '=' :: (" (".toList ++ args.text.toList ++ ") ".toList ++ '=' :: "> \x7b".toList) := by
    rw [text_eq]
    simp only [List.append_assoc]
    rfl
  have front_plain : '=' ∉ "const ".toList ++ name.text.toList ++ [' '] :=
    name.not_mem_between (by decide)
  have args_plain : '=' ∉ " (".toList ++ args.text.toList ++ ") ".toList := by
    simp only [List.mem_append, not_or]
    exact ⟨⟨by decide, args.plain '=' (by decide)⟩, by decide⟩
  rw [cut] at same
  rcases Text.append_cons_cases front_plain same.symm with
    ⟨rfl, -, rfl⟩ | ⟨between, -, rest_eq⟩
  · exact .inl ⟨rfl, rfl⟩
  · obtain ⟨-, rfl⟩ := Text.append_cons_inj_of_once args_plain (by decide) rest_eq.symm
    exact .inr (by decide)

/-- Neither a block nor a lambda is assigned. -/
theorem not_assignedTo_of_arrow {chars : List Char} (absent : '(' ∉ chars ∧ '>' ∉ chars) :
    ¬AssignedTo chars text := by
  rintro ⟨before, behind, same, c, listed, starts⟩
  rcases head?_behind_of_arrow text_eq same with ⟨-, first⟩ | first
  · rw [first, Option.some_inj] at starts
    exact absent.1 (starts ▸ listed)
  · rw [first, Option.some_inj] at starts
    exact absent.2 (starts ▸ listed)

theorem captured_of_arrow :
    ∀ found ∈ arrowPattern.findAll text, found.captured .name = name.text.toList := by
  intro found find
  obtain ⟨front, gap, behind, same, is_word, outside, blank, c, listed, starts⟩ :=
    exists_of_arrowPattern find
  rcases head?_behind_of_arrow text_eq same with ⟨front_eq, -⟩ | first
  · -- the last word in front of the first equals sign is the name
    have refused : ∀ c ∈ gap, Text.isWordChar c = false :=
      fun c mem => Text.not_isWordChar_of_isBlank (blank c mem)
    rw [← Text.lastWord_append is_word outside refused, front_eq,
      Text.lastWord_append name.is_word (by rintro _ ⟨⟩; decide) (by decide)]
  · rw [first, Option.some_inj] at starts
    rw [← starts] at listed
    exact absurd listed (by decide)

theorem onlyAssigns_of_arrow : OnlyAssigns text := by
  have cut : text = "const ".toList ++ name.text.toList ++ " ".toList ++ '=' :: [' '] ++
      '(' :: (args.text.toList ++ ')' :: " => \x7b".toList) := by
    rw [text_eq]
    simp only [List.append_assoc]
    rfl
  refine onlyAssigns_of_sign cut (by decide) (by decide) (fun c sign => ?_)
    (not_keywordBefore_assignment (not_keywordBefore_const name.is_word) (by decide))
    (by decide +kernel)
  have refused : ∀ c ∈ ['(', ':'], Text.isWordChar c = false ∧ c ∉ "const ".toList ∧
      c ∉ " ".toList ++ '=' :: [' '] := by decide
  rw [List.append_assoc]
  exact name.not_mem_between (refused c sign)

/-- A line in which an arrow function is assigned to a name. -/
theorem declaresOnly_arrow : DeclaresOnly name.text.toList text := by
  have is_found : arrowPattern.isFoundIn text = true := by
    rw [text_eq]
    exact isFoundIn_arrowPattern name.is_word (args.plain ')' (by decide))
  have captured := captured_of_arrow text_eq
  refine ⟨(onlyAssigns_of_arrow text_eq).only (fun found find => ?_) (fun found find => ?_)
    fun found find => .inl (captured found find),
    first_of_isFoundIn (mem_declarationPatterns.mpr (by simp)) is_found captured⟩
  · exact absurd (assignedTo_of_blockPattern find) (not_assignedTo_of_arrow text_eq (by decide))
  · exact absurd (assignedTo_of_lambdaPattern find) (not_assignedTo_of_arrow text_eq (by decide))

end Arrow

/-! ### Blocks and lambdas -/

/-- A line in which a block is assigned to a name. -/
theorem declaresOnly_block {name : FunctionName} {block : String}
    (opened : block ∈ ["lambda \x7b", "proc do"])
    (text_eq : text = name.text.toList ++ (" = ".toList ++ block.toList)) :
    DeclaresOnly name.text.toList text := by
  obtain ⟨found, finds, captured⟩ := findAll_blockPattern opened name.is_word
  rw [← text_eq] at finds
  have cut : text = name.text.toList ++ [' '] ++ '=' :: (' ' :: block.toList) := by
    rw [text_eq]
    simp only [List.append_assoc]
    rfl
  have block_plain : (∀ c ∈ ['(', '=', ':'], c ∉ ' ' :: block.toList) ∧
      ¬"def".toList <:+: ' ' :: block.toList ∧
      ∀ c ∈ ['-', '(', 'a'], (Text.stripLeft (' ' :: block.toList)).head? ≠ some c := by
    simp only [List.mem_cons, List.not_mem_nil, or_false] at opened
    rcases opened with rfl | rfl <;> decide +kernel
  have front_plain : ∀ c ∈ ['(', '=', ':'], c ∉ name.text.toList ++ [' '] := by
    have refused : ∀ c ∈ ['(', '=', ':'], Text.isWordChar c = false ∧ c ∉ [] ∧ c ∉ [' '] := by decide
    exact fun c sign => name.not_mem_between (refused c sign)
  have text_plain : ∀ c ∈ ['(', ':'], c ∉ text := by
    intro c sign
    have differs : ∀ c ∈ ['(', ':'], c ∈ ['(', '=', ':'] ∧ c ≠ '=' := by decide
    rw [cut, List.mem_append, List.mem_cons, not_or, not_or]
    exact ⟨front_plain c (differs c sign).1, (differs c sign).2, block_plain.1 c (differs c sign).1⟩
  have assigns : OnlyAssigns text := {
    undefined := by
      rw [cut]
      exact not_keywordBefore_assignment (not_keywordBefore_nameBlank name.is_word) block_plain.2.1
    unvalued := fun stands => text_plain ':' (by decide) stands.mem
    uncalled := by
      rintro front word behind ⟨⟨gap, same, -⟩, -⟩
      exact text_plain '(' (by decide) (by rw [same]; simp) }
  have unassigned {chars : List Char} (subset : chars ⊆ ['-', '(', 'a']) : ¬AssignedTo chars text := by
    intro assigned
    obtain ⟨c, listed, starts⟩ := assigned.exists_head? cut (front_plain '=' (by decide))
      (block_plain.1 '=' (by decide))
    exact block_plain.2.2 c (subset listed) starts
  refine ⟨assigns.only (fun found find => ?_) (fun found find => ?_) fun found find => ?_,
    blockPattern, mem_declarationPatterns.mpr (by simp), found, find?_of_findAll_eq_cons finds,
    captured⟩
  · rw [finds, List.mem_singleton] at find
    rw [find]
    exact .inl captured
  · exact absurd (assignedTo_of_lambdaPattern find) (unassigned (by decide))
  · exact absurd (assignedTo_of_arrowPattern find) (unassigned (by decide))

section Lambda

variable {name : FunctionName} {args : ArgumentText}

variable (text_eq : text = name.text.toList ++
  (" = ->(".toList ++ (args.text.toList ++ ')' :: " \x7b".toList)))
include text_eq

/-- Only a lambda is assigned. -/
theorem not_assignedTo_of_lambda {chars : List Char} (absent : '-' ∉ chars) :
    ¬AssignedTo chars text := by
  have cut : text = name.text.toList ++ [' '] ++
      '=' :: (" ->".toList ++ '(' :: (args.text.toList ++ ')' :: " \x7b".toList)) := by
    rw [text_eq]
    simp only [List.append_assoc]
    rfl
  have front_plain : '=' ∉ name.text.toList ++ [' '] :=
    @FunctionName.not_mem_between name '=' [] [' '] (by decide)
  have behind_plain :
      '=' ∉ " ->".toList ++ '(' :: (args.text.toList ++ ')' :: " \x7b".toList) := by
    rw [List.mem_append, List.mem_cons, not_or, not_or]
    exact ⟨by decide, by decide, args.not_mem (by decide) (by decide)⟩
  intro assigned
  obtain ⟨c, listed, starts⟩ := assigned.exists_head? cut front_plain behind_plain
  obtain rfl : '-' = c := Option.some_inj.mp starts
  exact absent listed

theorem onlyAssigns_of_lambda : OnlyAssigns text := by
  have cut : text = name.text.toList ++ " = -".toList ++ '>' :: [] ++
      '(' :: (args.text.toList ++ ')' :: " \x7b".toList) := by
    rw [text_eq]
    simp only [List.append_assoc]
    rfl
  have undefined : ¬Text.KeywordBefore "def" Text.isWordChar
      (name.text.toList ++ [' '] ++ '=' :: " ->".toList) :=
    not_keywordBefore_assignment (not_keywordBefore_nameBlank name.is_word) (by decide)
  have front_eq : name.text.toList ++ " = -".toList ++ '>' :: [] =
      name.text.toList ++ [' '] ++ '=' :: " ->".toList := by
    simp only [List.append_assoc]
    rfl
  rw [← front_eq] at undefined
  refine onlyAssigns_of_sign cut (by decide) (by decide) (fun c sign => ?_) undefined (by decide)
  have refused : ∀ c ∈ ['(', ':'], Text.isWordChar c = false ∧ c ∉ [] ∧
      c ∉ " = -".toList ++ '>' :: [] := by decide
  rw [List.append_assoc]
  exact name.not_mem_between (refused c sign)

/-- A line in which a lambda is assigned to a name. -/
theorem declaresOnly_lambda : DeclaresOnly name.text.toList text := by
  obtain ⟨found, finds, captured⟩ := findAll_lambdaPattern name.is_word
    (args.not_mem (by decide : '=' ∈ ['=', '(', ')', ';']) (by decide : '=' ∉ ')' :: " \x7b".toList))
  rw [← text_eq] at finds
  refine ⟨(onlyAssigns_of_lambda text_eq).only (fun found find => ?_) (fun found find => ?_)
    fun found find => ?_, lambdaPattern, mem_declarationPatterns.mpr (by simp), found,
    find?_of_findAll_eq_cons finds, captured⟩
  · exact absurd (assignedTo_of_blockPattern find) (not_assignedTo_of_lambda text_eq (by decide))
  · obtain rfl := List.mem_singleton.mp (finds ▸ find)
    exact .inl captured
  · exact absurd (assignedTo_of_arrowPattern find) (not_assignedTo_of_lambda text_eq (by decide))

end Lambda

end TraceInquest
