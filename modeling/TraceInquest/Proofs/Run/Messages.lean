import TraceInquest.Proofs.Text.Ends
import TraceInquest.Run.Basic

/-! # The messages of a run

A log is made of the messages of the events of a run. What a message starts and ends with tells of
which kind its event is.

* **`Event.front`** — what the messages of the events of a kind start with.
* **`messagesBetween`** — the messages of a log that start and end in some way.
* **`isFrameMessage`** — whether a message says what became of a frame. -/

namespace TraceInquest

/-! ## How messages start -/

/-- What the messages of the events of a kind start with. -/
def Event.front : Event → String
  | settingUnreadable _ => "python-dotenv could not parse statement starting at line "
  | traceParsed _ => "[Investigation] Parsed "
  | frameTimedOut _ => "[Investigation] Timed out reading "
  | frameAnalyzed _ _ _ => "[Investigation] "
  | parsingDone _ => "[1/3] Stack trace parsed: "
  | framesDone _ _ => "[2/3] Frames analyzed: "
  | scanFound _ => "[Scanner] Found "
  | scanCut _ => "[Scanner] Truncated to "
  | fileSkipped _ => "[Investigation] Skipped unreadable file "
  | codebaseDone _ => "[Investigation] Analyzed "
  | reportSaved _ => "\n✓ Report saved to "
  | event => event.message

/-- A message is what it starts with and what it is about. -/
theorem Event.exists_message_eq (event : Event) : ∃ rest, event.message = event.front ++ rest := by
  cases event with
  | settingUnreadable line => exact ⟨toString line, rfl⟩
  | title text => exact ⟨"", String.append_empty.symm⟩
  | noTrace => exact ⟨"", String.append_empty.symm⟩
  | traceUnparsed => exact ⟨"", String.append_empty.symm⟩
  | traceParsed frames => exact ⟨toString frames ++ " frames", String.append_assoc⟩
  | frameTimedOut filename => exact ⟨filename ++ ", skipping", String.append_assoc⟩
  | frameAnalyzed filename line status =>
    refine ⟨filename ++ (":" ++ (toString line ++ (" -> " ++ status))), ?_⟩
    unfold message front
    simp only [String.append_assoc]
  | parsingDone frames => exact ⟨toString frames ++ " frames", String.append_assoc⟩
  | framesDone results resolved =>
    refine ⟨toString results ++ (", with context: " ++ toString resolved), ?_⟩
    unfold message front
    simp only [String.append_assoc]
  | reportDone => exact ⟨"", String.append_empty.symm⟩
  | codebaseStarted => exact ⟨"", String.append_empty.symm⟩
  | scanStarted => exact ⟨"", String.append_empty.symm⟩
  | scanFound files => exact ⟨toString files ++ " files", String.append_assoc⟩
  | scanCut limit => exact ⟨toString limit ++ " files", String.append_assoc⟩
  | fileSkipped path => exact ⟨path, rfl⟩
  | codebaseDone files => exact ⟨toString files ++ " files", String.append_assoc⟩
  | reportSaved path => exact ⟨path, rfl⟩

theorem Event.startsWith_front (event : Event) : event.message.startsWith event.front = true := by
  obtain ⟨rest, message_eq⟩ := event.exists_message_eq
  rw [message_eq]
  exact Text.startsWith_append _ _

theorem Event.not_startsWith {event : Event} {mark : String}
    (unlike : Text.StartUnlike event.front mark) : event.message.startsWith mark = false :=
  Text.startsWith_eq_false_of_unlike event.startsWith_front unlike

/-! ## Messages of a kind -/

/-- The messages of a log that start and end in some way. -/
def messagesBetween (front back : String) (log : List String) : List String :=
  log.filter fun message => message.startsWith front && message.endsWith back

/-- What the log says of a frame. -/
def frameMessage (result : FrameAnalysis) : String :=
  "[Investigation] " ++ result.frame.filename ++ ":" ++ toString result.frame.line ++ " -> " ++
    result.outcome.status

/-- The words for what may become of a frame. -/
def frameStatuses : List String := ["resolved", "not_found", "no_context"]

/-- Whether a message says what became of a frame. -/
def isFrameMessage (message : String) : Bool :=
  message.startsWith "[Investigation] " &&
    frameStatuses.any fun status => message.endsWith (" -> " ++ status)

section Messages

variable {front back other : String} {keeps : String → Bool} {events : List Event}

theorem filter_messages_eq_nil
    (starts : ∀ message, keeps message = true → message.startsWith front = true)
    (others : ∀ event ∈ events, event.message.startsWith front = false) :
    (events.map (·.message)).filter keeps = [] := by
  refine List.filter_eq_nil_iff.mpr (List.forall_mem_map.mpr fun event mem kept => ?_)
  have started := starts _ kept
  rw [others event mem] at started
  cases started

/-- The title of a run starts with a frame, not with a bracket. -/
theorem not_startsWith_of_mem_titleEvents (bracket : front.toList.head? = some '[') :
    ∀ event ∈ titleEvents, event.message.startsWith front = false := by
  have title {text first rest : String} {d : Char} (text_eq : text = first ++ rest)
      (head : first.toList.head? = some d) (differ : '[' ≠ d) :
      (Event.title text).message.startsWith front = false := by
    show text.startsWith front = false
    rw [text_eq]
    exact Text.startsWith_append_eq_false bracket head differ
  -- a line of the title is long, so no more than its first character is taken off
  have top : "╔═══════════════════════════════════════════════════════════╗" =
      "╔" ++ "═══════════════════════════════════════════════════════════╗" := by
    decide +kernel
  have middle : "║          ISSUE INVESTIGATION PIPELINE                     ║" =
      "║" ++ "          ISSUE INVESTIGATION PIPELINE                     ║" := by
    decide +kernel
  have bottom : "╚═══════════════════════════════════════════════════════════╝" =
      "╚" ++ "═══════════════════════════════════════════════════════════╝" := by
    decide +kernel
  exact List.forall_mem_cons.mpr ⟨title top rfl (by decide), List.forall_mem_cons.mpr
    ⟨title middle rfl (by decide), List.forall_mem_singleton.mpr (title bottom rfl (by decide))⟩⟩

/-- Around what a run says of its work stand no messages in brackets. -/
theorem filter_messages_run
    (starts : ∀ message, keeps message = true → message.startsWith front = true)
    (bracket : front.toList.head? = some '[') (work : List Event) (path : String) :
    ((titleEvents ++ work ++ [Event.reportSaved path]).map (·.message)).filter keeps =
      (work.map (·.message)).filter keeps := by
  have titles : (titleEvents.map (·.message)).filter keeps = [] :=
    filter_messages_eq_nil starts (not_startsWith_of_mem_titleEvents bracket)
  have saved : ([Event.reportSaved path].map (·.message)).filter keeps = [] :=
    filter_messages_eq_nil starts (List.forall_mem_singleton.mpr
      (Text.startsWith_append_eq_false bracket rfl (by decide)))
  rw [List.map_append, List.map_append, List.filter_append, List.filter_append, titles, saved,
    List.nil_append, List.append_nil]

theorem startsWith_of_messagesBetween (front back message : String)
    (kept : (message.startsWith front && message.endsWith back) = true) :
    message.startsWith front = true :=
  (Bool.and_eq_true_iff.mp kept).1

theorem startsWith_of_isFrameMessage (message : String) (kept : isFrameMessage message = true) :
    message.startsWith "[Investigation] " = true :=
  (Bool.and_eq_true_iff.mp kept).1

/-- Events of other kinds have no messages of a kind. -/
theorem messagesBetween_of_unlike (unlike : ∀ event ∈ events, Text.StartUnlike event.front front) :
    messagesBetween front back (events.map (·.message)) = [] :=
  filter_messages_eq_nil (startsWith_of_messagesBetween front back) fun event mem =>
    Event.not_startsWith (unlike event mem)

theorem messagesBetween_of_front (unlike : Text.StartUnlike other front)
    (fronts : ∀ event ∈ events, event.front = other) :
    messagesBetween front back (events.map (·.message)) = [] :=
  messagesBetween_of_unlike fun event mem => by rwa [fronts event mem]

theorem messagesBetween_run (bracket : front.toList.head? = some '[') (work : List Event)
    (path : String) :
    messagesBetween front back ((titleEvents ++ work ++ [Event.reportSaved path]).map (·.message)) =
      messagesBetween front back (work.map (·.message)) :=
  filter_messages_run (startsWith_of_messagesBetween front back) bracket work path

theorem messagesBetween_append (front back : String) (log later : List String) :
    messagesBetween front back (log ++ later) =
      messagesBetween front back log ++ messagesBetween front back later :=
  List.filter_append ..

theorem messagesBetween_cons (front back : String) (event : Event) (events : List Event) :
    messagesBetween front back ((event :: events).map (·.message)) =
      messagesBetween front back [event.message] ++
        messagesBetween front back (events.map (·.message)) := by
  rw [← messagesBetween_append, List.singleton_append, List.map_cons]

/-- A message between two texts starts with the one and ends with the other. -/
theorem messagesBetween_singleton (front middle back : String) :
    messagesBetween front back [front ++ middle ++ back] = [front ++ middle ++ back] := by
  have starts : (front ++ middle ++ back).startsWith front = true := by
    rw [String.append_assoc]
    exact Text.startsWith_append _ _
  have ends := Text.endsWith_append (front ++ middle) back
  exact List.filter_cons_of_pos (by rw [starts, ends]; rfl)

end Messages

/-! ## Messages on frames -/

section Frames

variable {back : String}

theorem message_event (result : FrameAnalysis) : result.event.message = frameMessage result := by
  unfold FrameAnalysis.event Event.message frameMessage
  dsimp only

/-- A message on a frame ends with what became of it. -/
theorem endsWith_frameMessage (result : FrameAnalysis) :
    (frameMessage result).endsWith (" -> " ++ result.outcome.status) = true := by
  unfold frameMessage
  rw [String.append_assoc]
  exact Text.endsWith_append _ _

theorem status_mem_frameStatuses (outcome : FrameOutcome) : outcome.status ∈ frameStatuses := by
  cases outcome with
  | resolved path window => exact List.mem_cons_self
  | notFound => exact List.mem_cons_of_mem _ List.mem_cons_self
  | noContext path => exact List.mem_cons_of_mem _ (List.mem_cons_of_mem _ List.mem_cons_self)

theorem isFrameMessage_frameMessage (result : FrameAnalysis) :
    isFrameMessage (frameMessage result) = true := by
  have starts := Event.startsWith_front result.event
  rw [message_event] at starts
  rw [isFrameMessage, Bool.and_eq_true_iff, List.any_eq_true]
  exact ⟨starts, _, status_mem_frameStatuses result.outcome, endsWith_frameMessage result⟩

/-- Whether a text ends unlike every message on a frame. -/
def EndsUnlikeStatus (back : String) : Prop :=
  ∀ status ∈ frameStatuses, Text.EndUnlike (" -> " ++ status) back

instance (back : String) : Decidable (EndsUnlikeStatus back) :=
  inferInstanceAs (Decidable (∀ status ∈ frameStatuses, _))

theorem not_endsWith_frameMessage (unlike : EndsUnlikeStatus back) (result : FrameAnalysis) :
    (frameMessage result).endsWith back = false :=
  Text.endsWith_eq_false_of_unlike (endsWith_frameMessage result)
    (unlike _ (status_mem_frameStatuses result.outcome))

theorem not_isFrameMessage {message : String} (unlike : EndsUnlikeStatus back)
    (ends : message.endsWith back = true) : isFrameMessage message = false := by
  rw [isFrameMessage, Bool.and_eq_false_iff, List.any_eq_false]
  refine .inr fun status mem => ?_
  rw [Text.endsWith_eq_false_of_unlike ends (unlike status mem).symm]
  exact Bool.false_ne_true

/-- The message on a frame that was resolved ends in a way of its own. -/
theorem endsWith_resolved_frameMessage (result : FrameAnalysis) :
    (frameMessage result).endsWith "-> resolved" = result.outcome.window?.isSome := by
  have ends := endsWith_frameMessage result
  cases outcome : result.outcome with
  | resolved path window =>
    have ends : " -> resolved".toList <:+ (frameMessage result).toList := by
      rwa [outcome, Text.endsWith_iff] at ends
    show (frameMessage result).endsWith "-> resolved" = true
    rw [Text.endsWith_iff]
    exact List.IsSuffix.trans (by decide) ends
  | notFound =>
    have ends : (frameMessage result).endsWith " -> not_found" = true := by rwa [outcome] at ends
    exact Text.endsWith_eq_false_of_unlike ends (by decide)
  | noContext path =>
    have ends : (frameMessage result).endsWith " -> no_context" = true := by rwa [outcome] at ends
    exact Text.endsWith_eq_false_of_unlike ends (by decide)

end Frames

end TraceInquest
