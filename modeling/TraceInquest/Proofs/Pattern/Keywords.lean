import TraceInquest.Proofs.Pattern.Passage
import TraceInquest.Proofs.Pattern.Plain
import TraceInquest.Proofs.Text.Words

/-! # Keywords in patterns

A keyword at the edge of a word stands behind a text that ends outside a word, and a keyword in
front of the edge of a word is followed by something else than a word.

* **`not_isWordChar_of_atWordEdge`** — what follows a keyword in front of the edge of a word.
* **`exists_of_mem_stops_keyword`** — a sequence that begins with a keyword at the edge of a word.
* **`isFoundIn_seq_of_spells`** — a plain sequence behind anchors is found where it is spelled;
  **`isFoundIn_atStart_of_spells`** and **`isFoundIn_keyword_of_spells`** name the anchors. -/

namespace TraceInquest.Pattern

variable {ι : Type} {here stop : Cursor ι} {parts : List (Pattern ι)}

/-- Behind a text that ends within a word, the edge of a word is in front of another character. -/
theorem not_isWordChar_of_atWordEdge {text rest : List Char} {last : Char}
    (edge : (here.behind text rest).atWordEdge = true) (text_last : text.getLast? = some last)
    (last_word : Text.isWordChar last = true) :
    ∀ c ∈ rest.head?, Text.isWordChar c = false := by
  intro c first
  simp only [Cursor.atWordEdge, Cursor.behind, text_last, Option.some_or, Option.any_some, last_word,
    Option.mem_def.mp first] at edge
  simpa using edge

/-- In front of a word, the edge of a word is behind another character. -/
theorem endsOutside_of_atWordEdge {skipped rest : List Char} {c : Char}
    (edge : (cursorBehind skipped (c :: rest) : Cursor ι).atWordEdge = true)
    (c_word : Text.isWordChar c = true) : Text.EndsOutside skipped := by
  intro d last
  simp only [Cursor.atWordEdge, cursorBehind, List.head?_cons, Option.any_some, c_word,
    Option.mem_def.mp last] at edge
  simpa using edge

/-- A sequence that begins with a keyword at the edge of a word. -/
theorem exists_of_mem_stops_keyword {keyword : String} {skipped start : List Char} {c : Char}
    (starts : keyword.toList.head? = some c) (c_word : Text.isWordChar c = true)
    (mem : stop ∈ (seq (atWordEdge :: literal keyword :: parts)).stops (cursorBehind skipped start)) :
    Text.EndsOutside skipped ∧ ∃ rest, start = keyword.toList ++ rest ∧
      stop ∈ (seq parts).stops ((cursorBehind skipped start).behind keyword.toList rest) := by
  obtain ⟨_, edge_mem, mem⟩ := mem_stops_seq_cons.mp mem
  obtain ⟨edge, rfl⟩ := mem_stops_atWordEdge.mp edge_mem
  obtain ⟨_, keyword_mem, mem⟩ := mem_stops_seq_cons.mp mem
  obtain ⟨rest, start_eq, rfl⟩ := mem_stops_literal.mp keyword_mem
  obtain rfl : start = keyword.toList ++ rest := start_eq
  refine ⟨?_, rest, rfl, mem⟩
  obtain ⟨others, keyword_eq⟩ := List.head?_eq_some_iff.mp starts
  rw [keyword_eq] at edge
  exact endsOutside_of_atWordEdge edge c_word

/-- A plain sequence behind anchors is found where the anchors hold and the sequence is spelled. -/
theorem isFoundIn_seq_of_spells {before : List (Pattern ι)} {skipped taken rest : List Char}
    (anchored : cursorBehind skipped (taken ++ rest) ∈
      (seq before).stops (cursorBehind skipped (taken ++ rest)))
    (plain : (seq parts).IsPlain) (spelled : (seq parts).Spells taken) :
    (seq (before ++ parts)).isFoundIn (skipped ++ (taken ++ rest)) = true := by
  obtain ⟨stop, mem, -⟩ := @exists_mem_stops_of_spells _ _ plain
    (cursorBehind skipped (taken ++ rest)) _ _ rfl spelled
  have stops := mem_stops_seq_append.mpr ⟨_, anchored, mem⟩
  exact (isSome_find?_iff _ _).mpr ⟨skipped, taken ++ rest, rfl, List.ne_nil_of_mem stops⟩

/-- What can only be found at the start of a text is found where the text starts with it. -/
theorem isFoundIn_atStart_of_spells {taken : List Char} (plain : (seq parts).IsPlain)
    (spelled : (seq parts).Spells taken) (rest : List Char) :
    (seq (atStart :: parts)).isFoundIn (taken ++ rest) = true :=
  @isFoundIn_seq_of_spells _ _ [atStart] [] _ rest
    (mem_stops_seq_cons.mpr ⟨_, mem_stops_atStart.mpr ⟨rfl, rfl⟩, mem_stops_seq_nil.mpr rfl⟩) plain
    spelled

/-- A keyword begins at the edge of a word if it does not go on with one. -/
theorem atWordEdge_of_endsOutside {keyword : String} {skipped : List Char} {c : Char}
    (starts : keyword.toList.head? = some c) (c_word : Text.isWordChar c = true)
    (outside : Text.EndsOutside skipped) (rest : List Char) :
    (cursorBehind skipped (keyword.toList ++ rest) : Cursor ι).atWordEdge = true := by
  rw [Cursor.atWordEdge, cursorBehind, List.head?_append, starts, Option.some_or, Option.any_some,
    c_word]
  cases last : skipped.getLast? with
  | none => rfl
  | some d =>
    rw [Option.any_some, outside d last]
    rfl

/-- A plain sequence that begins with a keyword is found where no word goes on with it. -/
theorem isFoundIn_keyword_of_spells {keyword : String} {skipped taken : List Char} {c : Char}
    (starts : keyword.toList.head? = some c) (c_word : Text.isWordChar c = true)
    (outside : Text.EndsOutside skipped) (plain : (seq parts).IsPlain)
    (spelled : (seq parts).Spells taken) (rest : List Char) :
    (seq (atWordEdge :: literal keyword :: parts)).isFoundIn
      (skipped ++ (keyword.toList ++ taken ++ rest)) = true := by
  have edge : (cursorBehind skipped (keyword.toList ++ taken ++ rest) : Cursor ι).atWordEdge =
      true := by
    rw [List.append_assoc]
    exact atWordEdge_of_endsOutside starts c_word outside _
  refine @isFoundIn_seq_of_spells _ (literal keyword :: parts) [atWordEdge] skipped _ rest ?_ ?_
    (spells_seq_literal.mpr ⟨taken, spelled, rfl⟩)
  · exact mem_stops_seq_cons.mpr ⟨_, mem_stops_atWordEdge.mpr ⟨edge, rfl⟩, mem_stops_seq_nil.mpr rfl⟩
  · rw [isPlain_seq] at plain ⊢
    exact List.forall_mem_cons.mpr ⟨isPlain_literal keyword, plain⟩

end TraceInquest.Pattern
