import TraceInquest.Proofs.Pattern.Language

/-! # What can be captured under a label

What is captured under a label is a text that the body of a capture with this label spells, however
the captures stand in the pattern.

* **`Cursor.CapturesBy bodies here stop`** — what is captured on the way to a stop is spelled by
  one of some bodies.
* **`spells_of_captured?`** — a captured text is spelled by the body of a capture.
* **`Pattern.alwaysCaptures`**, **`Found.IsIn.spells_captured`** — a pattern that captures something
  under a label on every way to a stop. -/

namespace TraceInquest

variable {ι : Type}

/-! ## On the way to a stop -/

/-- Whether each text that is captured on the way from a cursor to another one is spelled by one of
some bodies, under the label of that body. -/
def Cursor.CapturesBy (bodies : List (ι × Pattern ι)) (here stop : Cursor ι) : Prop :=
  ∃ fresh, stop.captured = fresh ++ here.captured ∧ ∀ capture ∈ fresh,
    ∃ body, (capture.1, body) ∈ bodies ∧
      ∃ taken, capture.2.1 = taken ++ capture.2.2 ∧ body.Spells taken

namespace Cursor.CapturesBy

variable {bodies others : List (ι × Pattern ι)} {here middle stop : Cursor ι}

theorem of_captured_eq (same : stop.captured = here.captured) : CapturesBy bodies here stop :=
  ⟨[], same, by simp⟩

theorem refl (here : Cursor ι) : CapturesBy bodies here here := of_captured_eq rfl

theorem trans (first : CapturesBy bodies here middle) (second : CapturesBy bodies middle stop) :
    CapturesBy bodies here stop := by
  obtain ⟨fresh, captured, spelled⟩ := first
  obtain ⟨later, later_captured, later_spelled⟩ := second
  refine ⟨later ++ fresh, ?_, ?_⟩
  · rw [later_captured, captured, List.append_assoc]
  · exact List.forall_mem_append.mpr ⟨later_spelled, spelled⟩

theorem note {label : ι} {body : Pattern ι} {taken : List Char} (mem : (label, body) ∈ bodies)
    (captures : CapturesBy bodies here stop) (text : here.rest = taken ++ stop.rest)
    (spelled : body.Spells taken) : CapturesBy bodies here (stop.note label here.rest) := by
  obtain ⟨fresh, captured, all⟩ := captures
  refine ⟨(label, here.rest, stop.rest) :: fresh, ?_, List.forall_mem_cons.mpr ⟨?_, all⟩⟩
  · rw [Cursor.note, captured, List.cons_append]
  · exact ⟨body, mem, taken, text, spelled⟩

theorem isKept : Cursor.IsKept (CapturesBy bodies) := ⟨refl, trans, fun _ => of_captured_eq rfl⟩

end Cursor.CapturesBy

/-- What a pattern captures on the way to a stop is spelled by the bodies of its captures. -/
theorem Pattern.capturesBy_of_mem_stops {pattern : Pattern ι} {here stop : Cursor ι}
    (mem : stop ∈ pattern.stops here) : Cursor.CapturesBy pattern.captureBodies here stop := by
  refine Cursor.CapturesBy.isKept.of_mem_stops ?_ mem
  intro capture noted here inner inner_mem captures
  obtain ⟨taken, text, spelled⟩ := spells_of_mem_stops inner_mem
  exact captures.note noted text spelled

/-! ## Captures that are always made -/

namespace Pattern

/-- Whether a pattern captures something under a label on every way to a stop. -/
def alwaysCaptures [BEq ι] (label : ι) : Pattern ι → Bool
  | .append first second => first.alwaysCaptures label || second.alwaysCaptures label
  | .either first second => first.alwaysCaptures label && second.alwaysCaptures label
  | .capture other body => other == label || body.alwaysCaptures label
  | _ => false

/-- What has been captured is kept. -/
theorem captured_subset_of_mem_stops {pattern : Pattern ι} {here stop : Cursor ι}
    (mem : stop ∈ pattern.stops here) : here.captured ⊆ stop.captured := by
  obtain ⟨fresh, captured, -⟩ := capturesBy_of_mem_stops mem
  rw [captured]
  exact List.subset_append_right fresh _

theorem exists_capture_of_mem_stops [BEq ι] {label : ι} {pattern : Pattern ι}
    {here stop : Cursor ι} (always : pattern.alwaysCaptures label = true)
    (mem : stop ∈ pattern.stops here) : ∃ capture ∈ stop.captured, (capture.1 == label) = true := by
  induction pattern generalizing here stop with
  | append first second first_ih second_ih =>
    obtain ⟨middle, middle_mem, mem⟩ := List.mem_flatMap.mp mem
    rcases Bool.or_eq_true_iff.mp always with of_first | of_second
    · obtain ⟨capture, captured, labelled⟩ := first_ih of_first middle_mem
      exact ⟨capture, captured_subset_of_mem_stops mem captured, labelled⟩
    · exact second_ih of_second mem
  | either first second first_ih second_ih =>
    obtain ⟨of_first, of_second⟩ := Bool.and_eq_true_iff.mp always
    exact (List.mem_append.mp mem).elim (first_ih of_first) (second_ih of_second)
  | capture other body ih =>
    obtain ⟨inner, inner_mem, rfl⟩ := mem_stops_capture.mp mem
    rcases Bool.or_eq_true_iff.mp always with same | of_body
    · exact ⟨_, List.mem_cons_self, same⟩
    · obtain ⟨capture, captured, labelled⟩ := ih of_body inner_mem
      exact ⟨capture, List.mem_cons_of_mem _ captured, labelled⟩
  | empty | one accepts | span accepts longest ahead | repeated body _ | atStart | atEnd
  | atWordEdge | notAhead body _ => cases always

end Pattern

/-! ## Finds -/

/-- A captured text is spelled by the body of a capture with its label. -/
theorem Found.IsIn.spells_of_captured? [BEq ι] [LawfulBEq ι] {pattern : Pattern ι}
    {text : List Char} {found : Found ι} (is_in : found.IsIn pattern text) {label : ι}
    {part : List Char} (captured : found.captured? label = some part) :
    ∃ body, (label, body) ∈ pattern.captureBodies ∧ body.Spells part := by
  obtain ⟨-, previous, stops⟩ := is_in
  obtain ⟨fresh, captures, spelled⟩ := Pattern.capturesBy_of_mem_stops stops
  obtain ⟨capture, first, rfl⟩ := Option.map_eq_some_iff.mp captured
  -- nothing had been captured when the find began
  have mem : capture ∈ fresh := by
    have mem := List.mem_of_find?_eq_some first
    rwa [captures, List.append_nil] at mem
  obtain ⟨body, body_mem, taken, between, taken_spelled⟩ := spelled capture mem
  have same_label : capture.1 = label := by simpa using List.find?_some first
  refine ⟨body, same_label ▸ body_mem, ?_⟩
  rwa [between, textBetween_append]

/-- What is always captured is spelled by the body of a capture. -/
theorem Found.IsIn.spells_captured [BEq ι] [LawfulBEq ι] {pattern : Pattern ι} {text : List Char}
    {found : Found ι} (is_in : found.IsIn pattern text) {label : ι}
    (always : pattern.alwaysCaptures label = true) :
    ∃ body, (label, body) ∈ pattern.captureBodies ∧ body.Spells (found.captured label) := by
  obtain ⟨previous, stops⟩ := is_in.stop
  obtain ⟨capture, mem, labelled⟩ := Pattern.exists_capture_of_mem_stops always stops
  have captured : (found.captured? label).isSome = true := by
    rw [Found.captured?, Option.isSome_map, List.find?_isSome]
    exact ⟨capture, mem, labelled⟩
  obtain ⟨part, captured⟩ := Option.isSome_iff_exists.mp captured
  rw [Found.captured, captured]
  exact is_in.spells_of_captured? captured

end TraceInquest
