import TraceInquest.Pattern.Basic

/-! # Wildcards in one segment of an ignore rule

Between two slashes of a rule stand characters and wildcards: a star for any text, a question
mark for any character, and a set of characters in brackets; none of them crosses a slash but a
set that excludes. A backslash takes the next character literally. As with the rules that segments
are parts of, nothing but examples depends on how they are read.

* **`Glob.tokens segment`** — the tokens of a segment, or why it has none.
* **`setRanges content`** — the ranges that a set lists, unless one runs backwards.
* **`Glob.pattern tokens`** — the pattern of a segment. -/

namespace TraceInquest

/-- What a segment of an ignore rule is made of. -/
inductive GlobToken where
  /-- One particular character. -/
  | literal (c : Char)
  /-- A star: any text without a slash. -/
  | anyText
  /-- A question mark: any character but a slash. -/
  | anyChar
  /-- A set in brackets, as it is written between them. -/
  | set (excludes : Bool) (content : List Char)
  deriving DecidableEq, Repr

/-- Why a segment cannot be cut into tokens. -/
inductive GlobFault where
  /-- A bracket is opened and not closed. -/
  | unclosedSet
  /-- The segment ends with a backslash that takes nothing. -/
  | danglingEscape
  deriving DecidableEq, Repr

namespace Glob

/-- The text up to the first closing bracket, and the text behind that bracket. -/
def splitAtBracket : List Char → Option (List Char × List Char)
  | [] => none
  | c :: rest =>
    if c = ']' then some ([], rest)
    else (splitAtBracket rest).map fun split => (c :: split.1, split.2)

theorem length_splitAtBracket {text content rest : List Char}
    (h : splitAtBracket text = some (content, rest)) : rest.length < text.length := by
  induction text generalizing content with
  | nil => simp [splitAtBracket] at h
  | cons c text ih =>
    by_cases close : c = ']'
    · simp [splitAtBracket, close] at h
      simp [h.2]
    · simp only [splitAtBracket, close, if_false, Option.map_eq_some_iff, Prod.mk.injEq] at h
      obtain ⟨split, found, -, rfl⟩ := h
      have := @ih split.1 found
      simp only [List.length_cons]
      omega

/-- The content of a set and the text behind it. A closing bracket that comes first belongs to
the content. -/
def readContent : List Char → Option (List Char × List Char)
  | ']' :: text => (splitAtBracket text).map fun split => (']' :: split.1, split.2)
  | text => splitAtBracket text

theorem length_readContent {text content rest : List Char}
    (h : readContent text = some (content, rest)) : rest.length < text.length := by
  unfold readContent at h
  split at h
  · simp only [Option.map_eq_some_iff, Prod.mk.injEq] at h
    obtain ⟨split, found, -, rfl⟩ := h
    have := @length_splitAtBracket _ split.1 _ found
    simp only [List.length_cons]
    omega
  · exact length_splitAtBracket h

/-- The set that is opened in front of a text: whether it excludes, its content, and the text
behind it. -/
def readSet : List Char → Option (Bool × List Char × List Char)
  | '!' :: text => (readContent text).map (true, ·)
  | '^' :: text => (readContent text).map (true, ·)
  | text => (readContent text).map (false, ·)

theorem length_readSet {text content rest : List Char} {excludes : Bool}
    (h : readSet text = some (excludes, content, rest)) : rest.length < text.length := by
  unfold readSet at h
  split at h <;>
    (simp only [Option.map_eq_some_iff, Prod.mk.injEq] at h
     obtain ⟨split, found, -, rfl⟩ := h
     have := length_readContent found
     grind)

/-- The tokens of a segment; the first fault decides. -/
def tokens (segment : List Char) : Except GlobFault (List GlobToken) :=
  match segment with
  | [] => .ok []
  | ['\\'] => .error .danglingEscape
  | '\\' :: c :: rest => (tokens rest).map (.literal c :: ·)
  | '*' :: rest => (tokens rest).map (.anyText :: ·)
  | '?' :: rest => (tokens rest).map (.anyChar :: ·)
  | '[' :: rest =>
    match _found : readSet rest with
    | none => .error .unclosedSet
    | some (excludes, content, rest') => (tokens rest').map (.set excludes content :: ·)
  | c :: rest => (tokens rest).map (.literal c :: ·)
  termination_by segment.length
  decreasing_by
    all_goals simp_wf
    all_goals try have shorter := length_readSet _found
    all_goals omega

/-- The closed ranges of characters that a set lists: two characters joined by a hyphen, or one
character alone. There is none if a range runs backwards. -/
def setRanges : List Char → Option (List (Char × Char))
  | [] => some []
  | low :: '-' :: high :: rest =>
    if high.toNat < low.toNat then none
    else (setRanges rest).map ((low, high) :: ·)
  | c :: rest => (setRanges rest).map ((c, c) :: ·)

/-- Whether a character lies in one of the ranges. -/
def inSet (ranges : List (Char × Char)) (c : Char) : Bool :=
  ranges.any fun range => range.1.toNat ≤ c.toNat && c.toNat ≤ range.2.toNat

/-- Any character but a slash. -/
def isInSegment (c : Char) : Bool := c != '/'

/-- The pattern of one token, unless it is a set with a range that runs backwards. -/
def tokenPattern? : GlobToken → Option (Pattern Empty)
  | .literal c => some (.char c)
  | .anyText => some (.many isInSegment)
  | .anyChar => some (.one isInSegment)
  | .set excludes content =>
    (setRanges content).map fun ranges => .one fun c => inSet ranges c != excludes

/-- The pattern of a segment; a star alone stands for at least one character. -/
def pattern? : List GlobToken → Option (Pattern Empty)
  | [.anyText] => some (.many1 isInSegment)
  | tokens => (tokens.mapM tokenPattern?).map Pattern.seq

end Glob

end TraceInquest
