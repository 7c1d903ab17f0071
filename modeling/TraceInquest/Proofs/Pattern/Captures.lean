import TraceInquest.Proofs.Pattern.Kept

/-! # What a pattern captures

A pattern only ever moves forwards, and what it captures lies between the place where it was tried
and the place where it stops. So every captured text is a part of the text that was searched.

* **`Cursor.Leads here stop`** — `stop` is ahead of `here`, as are the captures made on the way.
* **`leads_of_mem_stops`** — a pattern leads from a place to each of its stops.
* **`Found.IsIn pattern text`** — the find is one in a text; `isIn_of_find?` and
  `isIn_of_mem_findAll` say so of those that a search gives.
* **`infix_of_captured?`** — a captured text is a part of the text that was searched. -/

namespace TraceInquest

variable {ι : Type}

/-! ## Moving forwards -/

/-- Whether a cursor can be reached from another by moving forwards, each capture on the way being
made between its own two places. -/
structure Cursor.Leads (here stop : Cursor ι) : Prop where
  rest : stop.rest <:+ here.rest
  captured : ∃ fresh, stop.captured = fresh ++ here.captured ∧
    ∀ capture ∈ fresh, capture.2.2 <:+ capture.2.1 ∧ capture.2.1 <:+ here.rest

namespace Cursor.Leads

theorem refl (here : Cursor ι) : here.Leads here :=
  ⟨List.suffix_rfl, [], rfl, by simp⟩

theorem trans {here middle stop : Cursor ι} (first : here.Leads middle)
    (second : middle.Leads stop) : here.Leads stop := by
  obtain ⟨fresh, captured, between⟩ := first.captured
  obtain ⟨later, captured', between'⟩ := second.captured
  refine ⟨second.rest.trans first.rest, later ++ fresh, ?_, ?_⟩
  · rw [captured', captured, List.append_assoc]
  · intro capture mem
    rcases List.mem_append.mp mem with mem | mem
    · exact ⟨(between' capture mem).1, (between' capture mem).2.trans first.rest⟩
    · exact between capture mem

theorem advance {here : Cursor ι} {c : Char} {rest : List Char} (text : here.rest = c :: rest) :
    here.Leads (here.advance c rest) := by
  refine ⟨?_, [], rfl, by simp⟩
  rw [text]
  exact List.suffix_cons c rest

theorem note {here stop : Cursor ι} (leads : here.Leads stop) (label : ι) :
    here.Leads (stop.note label here.rest) := by
  obtain ⟨fresh, captured, between⟩ := leads.captured
  refine ⟨leads.rest, (label, here.rest, stop.rest) :: fresh, ?_, ?_⟩
  · rw [Cursor.note, captured, List.cons_append]
  · rw [List.forall_mem_cons]
    exact ⟨⟨leads.rest, List.suffix_rfl⟩, between⟩

theorem isKept : Cursor.IsKept (@Cursor.Leads ι) := ⟨refl, trans, advance⟩

end Cursor.Leads

/-- A pattern leads from a place to each of its stops. -/
theorem Pattern.leads_of_mem_stops {pattern : Pattern ι} {here stop : Cursor ι}
    (mem : stop ∈ pattern.stops here) : here.Leads stop :=
  Cursor.Leads.isKept.of_mem_stops (fun capture _ _ _ _ leads => leads.note capture.1) mem

/-! ## Finds -/

/-- Whether a find is one in a text: it starts somewhere in the text and stops at a stop of the
pattern. -/
structure Found.IsIn (pattern : Pattern ι) (text : List Char) (found : Found ι) : Prop where
  start : found.start <:+ text
  stop : ∃ previous, found.stop ∈ pattern.stops ⟨previous, found.start, []⟩

namespace Pattern

variable {pattern : Pattern ι} {text : List Char} {found : Found ι}

/-- The first find in a text is one. -/
theorem isIn_of_findFrom {previous : Option Char}
    (find : pattern.findFrom previous text = some found) : found.IsIn pattern text := by
  induction text generalizing previous with
  | nil =>
    rw [findFrom, attempt_some, Option.map_eq_some_iff] at find
    obtain ⟨stop, first, rfl⟩ := find
    exact ⟨List.suffix_rfl, previous, List.mem_of_head? first⟩
  | cons c rest ih =>
    rw [findFrom, attempt_some] at find
    split at find
    · rename_i stop first
      obtain rfl := Option.some_inj.mp find
      exact ⟨List.suffix_rfl, previous, List.mem_of_head? first⟩
    · obtain ⟨start, stops⟩ := ih find
      exact ⟨start.trans (List.suffix_cons c rest), stops⟩

theorem isIn_of_find? (find : pattern.find? text = some found) : found.IsIn pattern text := by
  rw [find?_eq_findFrom] at find
  exact isIn_of_findFrom find

/-- So are all finds: each search goes on in a text that is left of the one before. -/
theorem isIn_of_mem_findAllFrom {previous : Option Char}
    (mem : found ∈ pattern.findAllFrom previous text) : found.IsIn pattern text := by
  fun_induction pattern.findAllFrom previous text with
  | case1 previous text stop attempted shorter ih =>
    rw [attempt_some] at attempted
    have stops := List.mem_of_head? attempted
    rcases List.mem_cons.mp mem with rfl | later
    · exact ⟨List.suffix_rfl, previous, stops⟩
    · obtain ⟨start, stop⟩ := ih later
      exact ⟨start.trans (leads_of_mem_stops stops).rest, stop⟩
  | case2 previous stop attempted _ =>
    rw [attempt_some] at attempted
    obtain rfl := List.mem_singleton.mp mem
    exact ⟨List.suffix_rfl, previous, List.mem_of_head? attempted⟩
  | case3 previous stop c rest attempted _ ih =>
    rw [attempt_some] at attempted
    rcases List.mem_cons.mp mem with rfl | later
    · exact ⟨List.suffix_rfl, previous, List.mem_of_head? attempted⟩
    · obtain ⟨start, stop⟩ := ih later
      exact ⟨start.trans (List.suffix_cons c rest), stop⟩
  | case4 previous attempted => cases mem
  | case5 previous c rest attempted ih =>
    obtain ⟨start, stop⟩ := ih mem
    exact ⟨start.trans (List.suffix_cons c rest), stop⟩

theorem isIn_of_mem_findAll (mem : found ∈ pattern.findAll text) : found.IsIn pattern text := by
  rw [findAll_eq_findAllFrom] at mem
  exact isIn_of_mem_findAllFrom mem

end Pattern

namespace Found.IsIn

variable [BEq ι] {pattern : Pattern ι} {text part : List Char} {found : Found ι} {label : ι}

/-- A captured text is a part of the text that was searched. -/
theorem infix_of_captured? (is_in : found.IsIn pattern text)
    (captured : found.captured? label = some part) : part <:+: text := by
  obtain ⟨start, previous, stops⟩ := is_in
  obtain ⟨fresh, captures, between⟩ := (Pattern.leads_of_mem_stops stops).captured
  obtain ⟨capture, first, rfl⟩ := Option.map_eq_some_iff.mp captured
  -- nothing had been captured when the find began
  have mem : capture ∈ fresh := by
    have mem := List.mem_of_find?_eq_some first
    rwa [captures, List.append_nil] at mem
  have suffix : capture.2.1 <:+ text := (between capture mem).2.trans start
  exact (List.take_prefix _ _).isInfix.trans suffix.isInfix

/-- A captured text, or the empty text, is a part of the text that was searched. -/
theorem infix_captured (is_in : found.IsIn pattern text) (label : ι) :
    found.captured label <:+: text := by
  rw [Found.captured]
  cases captured : found.captured? label with
  | none => exact List.nil_infix
  | some part => exact is_in.infix_of_captured? captured

end Found.IsIn

end TraceInquest
