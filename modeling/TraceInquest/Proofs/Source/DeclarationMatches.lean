import TraceInquest.Proofs.Source.DeclarationFinds

/-! # Lines in which the patterns of declarations are found

What a pattern of a declaration finds in a line that is made for it: the only find of a pattern
that would stop at the first of several places, and that there is one where all are alike.

* **`findAll_defPattern`**, **`findAll_wordName`** — the only find, with what it captures.
* **`isFoundIn_arrowPattern`**, … — patterns that are found. -/

namespace TraceInquest

open Pattern

variable {name behind : List Char}

/-! ## Definitions -/

/-- What follows a name does not go on with it and is no full stop. -/
theorem head?_mark {mark : String} (marked : mark ∈ ["", "!", "?"]) (behind : List Char) :
    ∀ c ∈ (mark.toList ++ '(' :: behind).head?, Text.isWordChar c = false ∧ c ≠ '.' := by
  simp only [List.mem_cons, List.not_mem_nil, or_false] at marked
  rcases marked with rfl | rfl | rfl <;> rintro _ ⟨⟩ <;> decide

/-- A name with its mark is taken up to the parenthesis. -/
theorem exists_attempt_markedName {here : Cursor Captured} {mark : String}
    (marked : mark ∈ ["", "!", "?"]) (is_word : Text.IsWord name)
    (text : here.rest = name ++ (mark.toList ++ '(' :: behind)) :
    ∃ stop, (seq [capture .name (seq [many1 Text.isWordChar, optional (among "!?")])]).attempt here
        some = some stop ∧ stop.rest = '(' :: behind ∧
      stop.captured = (.name, here.rest, '(' :: behind) :: here.captured := by
  have ends := fun c first => (head?_mark marked behind c first).1
  simp only [List.mem_cons, List.not_mem_nil, or_false] at marked
  rcases marked with rfl | rfl | rfl <;>
    exact ⟨_, attempt_many1_whole _ text is_word.nonempty is_word.all ends rfl, rfl, rfl⟩

/-- In front of the name `self.` is passed over. -/
theorem exists_attempt_receiver {here : Cursor Captured} {receiver mark : String}
    (received : receiver ∈ ["", "self."]) (marked : mark ∈ ["", "!", "?"])
    (is_word : Text.IsWord name)
    (text : here.rest = receiver.toList ++ (name ++ (mark.toList ++ '(' :: behind))) :
    ∃ stop, (seq [optional "self.",
        capture .name (seq [many1 Text.isWordChar, optional (among "!?")])]).attempt here some =
          some stop ∧ stop.rest = '(' :: behind ∧
      stop.captured =
        (.name, name ++ (mark.toList ++ '(' :: behind), '(' :: behind) :: here.captured := by
  simp only [List.mem_cons, List.not_mem_nil, or_false] at received
  rw [attempt_seq_cons, Pattern.optional]
  rcases received with rfl | rfl
  · -- the name is a word, so it does not begin with the receiver
    have fails : (literal "self.").attempt here (fun middle => (seq [capture .name
        (seq [many1 Text.isWordChar, optional (among "!?")])]).attempt middle some) = none := by
      refine attempt_eq_none fun taken stop here_eq spelled => ?_
      rw [text, spells_literal.mp spelled] at here_eq
      obtain ⟨-, tail_eq⟩ := @Text.append_run_inj _ _ _ "self".toList _ ('.' :: stop.rest) is_word.all
        (by decide) (fun c first => (head?_mark marked behind c first).1)
        (by rintro _ ⟨⟩; decide) here_eq
      exact absurd rfl (head?_mark marked behind '.' (by rw [tail_eq]; rfl)).2
    obtain ⟨stop, succeeds, stop_rest, captured⟩ := exists_attempt_markedName marked is_word text
    rw [text] at captured
    exact ⟨stop, (attempt_either_of_none fails).trans succeeds, stop_rest, captured⟩
  · obtain ⟨stop, succeeds, stop_rest, captured⟩ := @exists_attempt_markedName name behind
      (here.behind "self.".toList (name ++ (mark.toList ++ '(' :: behind))) _ marked is_word rfl
    refine ⟨stop, attempt_either_of_some ?_, stop_rest, captured⟩
    rw [attempt_literal "self." _ text]
    exact succeeds

/-- The only find of the keyword `def`, with the name behind it. -/
theorem findAll_defPattern {lead receiver mark : String} (led : lead ∈ ["", "async "])
    (received : receiver ∈ ["", "self."]) (marked : mark ∈ ["", "!", "?"])
    (is_word : Text.IsWord name) (last : ¬"def".toList <:+: behind) :
    ∃ found, defPattern.findAll (lead.toList ++ ("def ".toList ++
        (receiver.toList ++ (name ++ (mark.toList ++ '(' :: behind))))) = [found] ∧
      found.captured .name = name ++ mark.toList := by
  simp only [List.mem_cons, List.not_mem_nil, or_false] at led
  have absent : 'd' ∉ lead.toList := by rcases led with rfl | rfl <;> decide
  have edge : Cursor.atWordEdge (⟨lead.toList.getLast?, "def ".toList ++ (receiver.toList ++
      (name ++ (mark.toList ++ '(' :: behind))), []⟩ : Cursor Captured) = true := by
    rcases led with rfl | rfl <;> rfl
  have starts : ∀ c ∈ (receiver.toList ++ (name ++ (mark.toList ++ '(' :: behind))).head?,
      Text.isBlank c = false := by
    obtain ⟨c, others, name_eq⟩ := List.exists_cons_of_ne_nil is_word.nonempty
    simp only [List.mem_cons, List.not_mem_nil, or_false] at received
    rcases received with rfl | rfl
    · rw [name_eq]
      rintro _ ⟨⟩
      exact is_word.not_isBlank c (by rw [name_eq]; exact List.mem_cons_self)
    · rintro _ ⟨⟩
      decide
  -- behind the keyword and the blank come the receiver and the name
  obtain ⟨stop, succeeds, stop_rest, captured⟩ := @exists_attempt_receiver name behind
    ((Cursor.behind ⟨lead.toList.getLast?, "def ".toList ++ (receiver.toList ++
      (name ++ (mark.toList ++ '(' :: behind))), []⟩ "def".toList (' ' :: (receiver.toList ++
      (name ++ (mark.toList ++ '(' :: behind))))).behind [' '] _) _ _ received marked is_word rfl
  have captured : stop.captured =
    [(.name, name ++ mark.toList ++ '(' :: behind, '(' :: behind)] := by
    rw [captured, List.append_assoc]
    rfl
  refine ⟨⟨_, stop⟩, findAll_append_eq_singleton ?_ ?_ ?_ ?_, ?_⟩
  · -- nothing in front of the keyword begins like it
    intro less more here lead_eq more_ne here_eq
    obtain ⟨c, more, rfl⟩ := List.exists_cons_of_ne_nil more_ne
    show (seq (atWordEdge :: literal "def" :: _)).attempt here some = none
    rw [attempt_seq_cons, attempt]
    split
    · refine attempt_literal_cons_eq_none (by rfl) ?_
      rw [here_eq]
      rintro ⟨⟩
      exact absent (by rw [lead_eq]; exact List.mem_append_right less List.mem_cons_self)
    · rfl
  · show (seq (atWordEdge :: literal "def" :: blanks1 :: _)).attempt _ some = _
    rw [attempt_seq_cons, attempt_atWordEdge edge, attempt_seq_cons, attempt_literal "def" _ rfl,
      attempt_seq_cons]
    exact attempt_many1_whole _ rfl (List.cons_ne_nil _ _) (by decide) starts succeeds
  · rw [stop_rest]
    simp
    omega
  · rw [stop_rest]
    -- no other keyword stands behind the name
    rintro part infix_text ⟨_, _, rfl, ⟨_, _, keyword, -, rfl⟩, rfl⟩
    rw [spells_literal.mp keyword] at infix_text
    have in_rest : "def".toList <:+: '(' :: behind :=
      List.IsInfix.trans ⟨[], _, rfl⟩ infix_text
    rcases @Text.infix_of_infix_append_cons _ [] _ '(' (by decide) in_rest with in_nil | in_behind
    · exact absurd (List.infix_nil.mp in_nil) (by decide)
    · exact last in_behind
  · exact captured_of_last captured

/-! ## Words with something bound to them -/

/-- The only find of a pattern that begins with a word, if the rest of the pattern can be taken at
once behind the word. -/
theorem findAll_wordName {after : List (Pattern Captured)} {stop : Cursor Captured}
    (is_word : Text.IsWord name) (ends : ∀ c ∈ behind.head?, Text.isWordChar c = false)
    (succeeds : (seq after).attempt
      ⟨name.getLast?.or none, behind, [(.name, name ++ behind, behind)]⟩ some = some stop)
    (captured : stop.captured = [(.name, name ++ behind, behind)])
    (progress : stop.rest.length ≤ behind.length)
    (last : ∀ part, part <:+: stop.rest → ¬(seq (wordName :: after)).Spells part) :
    ∃ found, (seq (wordName :: after)).findAll (name ++ behind) = [found] ∧
      found.captured .name = name := by
  refine ⟨⟨name ++ behind, stop⟩, findAll_eq_singleton ?_ ?_ last, captured_of_last captured⟩
  · exact attempt_many1_whole behind rfl is_word.nonempty is_word.all ends succeeds
  · have name_pos := List.length_pos_iff.mpr is_word.nonempty
    rw [List.length_append]
    omega

theorem findAll_blockPattern {block : String} (opened : block ∈ ["lambda \x7b", "proc do"])
    (is_word : Text.IsWord name) :
    ∃ found, blockPattern.findAll (name ++ (" = ".toList ++ block.toList)) = [found] ∧
      found.captured .name = name := by
  have none_left : ∀ part, part <:+: [] → ¬blockPattern.Spells part := by
    rintro part infix_nil ⟨_, _, word_spelled, -, rfl⟩
    have word_nil := (List.append_eq_nil_iff.mp (List.infix_nil.mp infix_nil)).1
    exact (spells_run.mp word_spelled).1 word_nil
  simp only [List.mem_cons, List.not_mem_nil, or_false] at opened
  rcases opened with rfl | rfl
  · exact findAll_wordName is_word (by rintro _ ⟨⟩; decide) rfl rfl (Nat.zero_le _) none_left
  · exact findAll_wordName is_word (by rintro _ ⟨⟩; decide) rfl rfl (Nat.zero_le _) none_left

theorem findAll_lambdaPattern (is_word : Text.IsWord name) (last : '=' ∉ behind) :
    ∃ found, lambdaPattern.findAll (name ++ (" = ->(".toList ++ behind)) = [found] ∧
      found.captured .name = name := by
  refine findAll_wordName is_word (by rintro _ ⟨⟩; decide) rfl rfl ?_ ?_
  · show behind.length ≤ (" = ->(".toList ++ behind).length
    rw [List.length_append]
    omega
  · rintro part infix_behind ⟨_, _, -, ⟨_, _, -, ⟨_, _, sign, -, rfl⟩, rfl⟩, rfl⟩
    rw [spells_literal.mp sign] at infix_behind
    exact last (infix_behind.subset (by simp))

theorem findAll_functionValuePattern (is_word : Text.IsWord name)
    (last : ¬"function".toList <:+: behind) :
    ∃ found, functionValuePattern.findAll (name ++ (": function (".toList ++ behind)) = [found] ∧
      found.captured .name = name := by
  refine findAll_wordName is_word (by rintro _ ⟨⟩; decide) rfl rfl ?_ ?_
  · show (" (".toList ++ behind).length ≤ (": function".toList ++ (" (".toList ++ behind)).length
    rw [@List.length_append _ ": function".toList]
    omega
  · intro part infix_rest spelled
    have in_rest : "function".toList <:+: [' '] ++ '(' :: behind :=
      (hasFunctionValue_of_spells spelled).infix_text.trans infix_rest
    rcases Text.infix_of_infix_append_cons (by decide) in_rest with in_blank | in_behind
    · exact absurd in_blank (by decide)
    · exact last in_behind

/-! ## Patterns that are found -/

variable {args : List Char}

theorem isFoundIn_arrowPattern (is_word : Text.IsWord name) (closed : ')' ∉ args) :
    arrowPattern.isFoundIn
      ("const ".toList ++ (name ++ (" = (".toList ++ (args ++ ") => \x7b".toList)))) = true := by
  have spelled : (seq [words ["const", "let", "var"], blanks1, wordName, blanks, "=", blanks,
      optional (seq ["async", blanks]), arguments, blanks, "=>"] : Pattern Captured).Spells
        ("const ".toList ++ (name ++ (" = (".toList ++ (args ++ ") =>".toList)))) := by
    have keyword : (words ["const", "let", "var"] : Pattern Captured).Spells "const".toList :=
      (spells_words (by decide)).mpr ⟨_, by decide, rfl⟩
    refine ⟨_, _, keyword, ⟨_, _, spells_blank1, ⟨_, _, spells_wordName is_word, ⟨_, _, spells_blank,
      ⟨_, _, spells_literal.mpr rfl, ⟨_, _, spells_blank, ⟨[], _, .inr rfl,
      ⟨_, _, spells_arguments.mpr ⟨args, rfl, closed⟩, ⟨_, _, spells_blank,
      ⟨_, _, spells_literal.mpr rfl, rfl, rfl⟩, rfl⟩, rfl⟩, rfl⟩, rfl⟩, rfl⟩, rfl⟩, rfl⟩, rfl⟩, ?_⟩
    simp
  have text_eq : "const ".toList ++ (name ++ (" = (".toList ++ (args ++ ") => \x7b".toList))) =
      "const ".toList ++ (name ++ (" = (".toList ++ (args ++ ") =>".toList))) ++ " \x7b".toList := by
    simp
  rw [text_eq]
  refine @isFoundIn_seq_of_spells _ _ [atWordEdge] [] _ _ ?_ ?_ spelled
  · exact mem_stops_seq_cons.mpr ⟨_, mem_stops_atWordEdge.mpr ⟨rfl, rfl⟩, mem_stops_seq_nil.mpr rfl⟩
  · simp [blanks, blanks1, wordName, arguments]

/-- A function with a receiver. -/
theorem isFoundIn_funcPattern {receiver : List Char} (is_word : Text.IsWord name)
    (closed : ')' ∉ receiver) :
    funcPattern.isFoundIn ("func (".toList ++ (receiver ++ (") ".toList ++ (name ++ '(' :: behind)))) =
      true := by
  have spelled : (seq ["func", blanks1, optional (seq [arguments, blanks]), wordName, blanks, "("] :
      Pattern Captured).Spells
        ("func (".toList ++ (receiver ++ (") ".toList ++ (name ++ ['('])))) := by
    refine ⟨_, _, spells_literal.mpr rfl, ⟨_, _, spells_blank1,
      ⟨_, _, .inl ⟨_, _, spells_arguments.mpr ⟨receiver, rfl, closed⟩,
        ⟨_, _, spells_blank, rfl, rfl⟩, rfl⟩, ⟨_, _, spells_wordName is_word,
      ⟨_, _, spells_no_blanks, ⟨_, _, spells_literal.mpr rfl, rfl, rfl⟩, rfl⟩, rfl⟩, rfl⟩, rfl⟩, ?_⟩
    simp
  have text_eq : "func (".toList ++ (receiver ++ (") ".toList ++ (name ++ '(' :: behind))) =
      "func (".toList ++ (receiver ++ (") ".toList ++ (name ++ ['(']))) ++ behind := by simp
  rw [text_eq]
  refine @isFoundIn_seq_of_spells _ _ [atStart] [] _ _ ?_ ?_ spelled
  · exact mem_stops_seq_cons.mpr ⟨_, mem_stops_atStart.mpr ⟨rfl, rfl⟩, mem_stops_seq_nil.mpr rfl⟩
  · simp [blanks, blanks1, wordName, arguments]

/-- A method without modifiers. -/
theorem isFoundIn_methodPattern (is_word : Text.IsWord name) (closed : ')' ∉ args) :
    methodPattern.isFoundIn (name ++ '(' :: (args ++ ") \x7b".toList)) = true := by
  have spelled : (seq [wordName, blanks, arguments, blanks, "\x7b"] : Pattern Captured).Spells
      (name ++ '(' :: (args ++ ") \x7b".toList)) := by
    refine ⟨_, _, spells_wordName is_word, ⟨_, _, spells_no_blanks,
      ⟨_, _, spells_arguments.mpr ⟨args, rfl, closed⟩, ⟨_, _, spells_blank,
      ⟨_, _, spells_literal.mpr rfl, rfl, rfl⟩, rfl⟩, rfl⟩, rfl⟩, ?_⟩
    simp
  rw [← List.append_nil (name ++ _)]
  refine @isFoundIn_seq_of_spells _ _ [atStart, repeated _] [] _ _ ?_ ?_ spelled
  · exact mem_stops_seq_cons.mpr ⟨_, mem_stops_atStart.mpr ⟨rfl, rfl⟩,
      mem_stops_seq_cons.mpr ⟨_, mem_stops_repeated_self, mem_stops_seq_nil.mpr rfl⟩⟩
  · simp [blanks, wordName, arguments]

/-- A type is none of the words that cannot be one. -/
theorem stops_nonTypeWords {type : List Char} {here : Cursor Captured} (is_type : Text.IsWord type)
    (allowed : String.ofList type ∉ nonTypeWords) (text : here.rest = type ++ ' ' :: behind) :
    (seq [words nonTypeWords, atWordEdge]).stops here = [] := by
  have are_words : ∀ word ∈ nonTypeWords, word.toList ≠ [] ∧
      ∀ c ∈ word.toList, Text.isWordChar c = true := by decide
  rw [List.eq_nil_iff_forall_not_mem]
  intro stop mem
  obtain ⟨_, word_mem, mem⟩ := mem_stops_seq_cons.mp mem
  obtain ⟨word, listed, literal_mem⟩ := (mem_stops_words (by decide)).mp word_mem
  obtain ⟨rest, here_eq, rfl⟩ := mem_stops_literal.mp literal_mem
  obtain ⟨_, edge_mem, -⟩ := mem_stops_seq_cons.mp mem
  obtain ⟨nonempty, all⟩ := are_words word listed
  have is_word : Text.IsWord word.toList := ⟨nonempty, all⟩
  obtain ⟨last, last_eq, last_word⟩ := is_word.exists_getLast?
  have ends := not_isWordChar_of_atWordEdge (mem_stops_atWordEdge.mp edge_mem).1 last_eq last_word
  -- both are the first word of the text
  obtain ⟨type_eq, -⟩ := Text.append_run_inj is_type.all all (by rintro _ ⟨⟩; decide) ends
    (text.symm.trans here_eq)
  rw [type_eq, String.ofList_toList] at allowed
  exact allowed listed

/-- A word behind a type that is none of the words that cannot be one. -/
theorem isFoundIn_typedPattern {type : List Char} (is_type : Text.IsWord type)
    (allowed : String.ofList type ∉ nonTypeWords) (is_word : Text.IsWord name)
    (open_end : ';' ∉ behind) :
    typedPattern.isFoundIn (type ++ ' ' :: (name ++ '(' :: behind)) = true := by
  have spelled : (seq [many1 isTypeChar, blanks1, many (· == '*'), wordName, blanks, "(",
      many (· != ';')] : Pattern Captured).Spells (type ++ ' ' :: (name ++ '(' :: behind)) := by
    have type_spelled : (many1 isTypeChar : Pattern Captured).Spells type :=
      spells_run.mpr ⟨is_type.nonempty, fun c mem => by simp [isTypeChar, is_type.all c mem]⟩
    have behind_spelled : (many (· != ';') : Pattern Captured).Spells behind :=
      fun c mem => bne_iff_ne.mpr fun same => open_end (same ▸ mem)
    refine ⟨_, _, type_spelled, ⟨_, _, spells_blank1, ⟨[], _, by rintro _ ⟨⟩,
      ⟨_, _, spells_wordName is_word, ⟨_, _, spells_no_blanks, ⟨_, _, spells_literal.mpr rfl,
      ⟨_, _, behind_spelled, rfl, rfl⟩, rfl⟩, rfl⟩, rfl⟩, rfl⟩, rfl⟩, ?_⟩
    simp
  have plain : (seq [many1 isTypeChar, blanks1, many (· == '*'), wordName, blanks, "(",
      many (· != ';')] : Pattern Captured).IsPlain := by
    simp [blanks, blanks1, wordName]
  -- the parts behind the look-ahead are plain, so they stop behind all that they spell
  obtain ⟨stop, mem, stop_rest⟩ := @exists_mem_stops_of_spells _ _ plain
    (cursorBehind [] (type ++ ' ' :: (name ++ '(' :: behind))) _ [] (List.append_nil _).symm spelled
  refine (isSome_find?_iff typedPattern _).mpr
    ⟨[], _, rfl, List.ne_nil_of_mem (mem_stops_seq_cons.mpr ⟨_, mem_stops_atStart.mpr ⟨rfl, rfl⟩,
      mem_stops_seq_cons.mpr ⟨_, mem_stops_repeated_self, mem_stops_seq_cons.mpr ⟨_,
        mem_stops_notAhead.mpr ⟨stops_nonTypeWords is_type allowed rfl, rfl⟩,
        mem_stops_seq_append.mpr ⟨stop, mem, mem_stops_seq_cons.mpr ⟨stop,
          mem_stops_atEnd.mpr ⟨?_, rfl⟩, mem_stops_seq_nil.mpr rfl⟩⟩⟩⟩⟩)⟩
  rw [Cursor.atEnd, stop_rest]

end TraceInquest
