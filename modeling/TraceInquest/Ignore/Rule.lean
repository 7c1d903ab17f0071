import TraceInquest.Ignore.Glob
import TraceInquest.Pattern.Search
import TraceInquest.Text.Blank
import TraceInquest.Text.Lines
import TraceInquest.Text.Quoted

/-! # Ignore rules

A `.gitignore` file holds one rule a line. A rule names paths by segments between slashes; a
segment of two stars stands for any number of directories. A rule with one segment holds at every
depth, a rule with a slash at its start or in its middle only from the root on, and a rule with a
slash at its end only for directories and what is in them. A rule that begins with an exclamation
mark takes back what earlier rules ignore; the last rule that matches decides.

How a line is read and what it matches is up to the library that the ignore file is handed to.
Nothing but examples depends on it: what is proved of scans, of reports and of runs holds whatever
`parseRule` makes of a line and whatever `isIgnored` says of a path.

* **`parseRule line`** — the rule in a line, if it holds one, or what is wrong with it.
* **`parseRules lines`** — the rules of a file, or what is wrong with the first bad line.
* **`isIgnored rules path`** — whether the rules ignore a path. -/

namespace TraceInquest

/-- A rule of an ignore file. -/
structure IgnoreRule where
  /-- Whether matching paths are ignored, and not taken back. -/
  ignores : Bool
  /-- What is found in the paths that the rule matches. -/
  pattern : Pattern Empty

/-- What is wrong with a line of an ignore file. -/
inductive IgnoreFault where
  /-- The line names nothing, or ends a segment with a backslash. -/
  | invalidLine (line : String)
  /-- A set in the line has a range that runs backwards. -/
  | backwardRange
  deriving DecidableEq, Repr

/-- What is said of a bad line. -/
def IgnoreFault.message : IgnoreFault → String
  | .invalidLine line => "Invalid git pattern: " ++ Text.quoted line
  | .backwardRange => ""

/-- A segment of an ignore rule. -/
inductive IgnoreSegment where
  /-- Two stars: any number of directories. -/
  | anyDepth
  /-- A name with wildcards. -/
  | name (tokens : List GlobToken)
  deriving DecidableEq, Repr

namespace IgnoreRule

/-- The segment of two stars. -/
def starStar : List Char := ['*', '*']

/-- The line without the blanks at its end, except where a backslash keeps the last one. -/
def trimLine (line : List Char) : List Char :=
  match line.reverse with
  | ' ' :: '\\' :: _ => line
  | _ => Text.stripRight line

/-- The text between slashes. -/
def splitSegments (text : List Char) : List (List Char) := Text.cutLines (· == '/') [[]] text

/-- Puts two stars in front of a rule with a single segment; a slash at the start is dropped. -/
def anchor : List (List Char) → List (List Char)
  | [] :: rest => rest
  | [first] => if first = starStar then [first] else [starStar, first]
  | [first, []] => if first = starStar then [first, []] else [starStar, first, []]
  | segments => segments

/-- Makes an empty last segment two stars. -/
def openEnd (segments : List (List Char)) : List (List Char) :=
  match segments.getLast? with
  | some [] => segments.dropLast ++ [starStar]
  | _ => segments

/-- Leaves one of several segments of two stars that follow each other. -/
def collapse : List (List Char) → List (List Char)
  | first :: second :: rest =>
    if first = starStar ∧ second = starStar then collapse (second :: rest)
    else first :: collapse (second :: rest)
  | segments => segments

/-- A segment read as two stars or as a name with wildcards. -/
def readSegment (segment : List Char) : Except GlobFault IgnoreSegment :=
  if segment = starStar then .ok .anyDepth else (Glob.tokens segment).map .name

/-- Any character but a line feed. -/
def isInLine (c : Char) : Bool := c != '\n'

/-- The parts of the pattern of the segments behind the first one; `slash` says whether a slash
is due before the next name. There are none if a set has a range that runs backwards. -/
def laterParts? (slash : Bool) : List IgnoreSegment → Option (List (Pattern Empty))
  | [] => some []
  | [.anyDepth] => some [.char '/']
  | .anyDepth :: rest =>
    (laterParts? true rest).map (.optional (.seq [.char '/', .many1 isInLine]) :: ·)
  | .name tokens :: rest => do
    let name ← Glob.pattern? tokens
    let after ← laterParts? true rest
    let ending := if rest.isEmpty then [.either (.char '/') .atEnd] else []
    return (if slash then [.char '/'] else []) ++ name :: (ending ++ after)

/-- The pattern of a rule that has more than two stars to it. -/
def segmentsPattern? : List IgnoreSegment → Option (Pattern Empty)
  | .anyDepth :: rest =>
    (laterParts? false rest).map fun parts =>
      .seq (.atStart :: .optional (.seq [.many1 isInLine, .char '/']) :: parts)
  | segments => (laterParts? false segments).map fun parts => .seq (.atStart :: parts)

/-- The pattern of a rule whose segments are nothing but stars, if they are. -/
def starsPattern? (directory : Bool) (segments : List (List Char)) : Option (Pattern Empty) :=
  if segments = [starStar] then
    some (if directory then .char '/' else .one isInLine)
  else if segments = [starStar, ['*']] then some (.one isInLine)
  else if segments = [starStar, ['*'], starStar] then some (.char '/')
  else none

/-- The pattern of a rule without its exclamation mark: none if a bracket is not closed. The line
as it stands in the file is `line`. -/
def rulePattern (line text : List Char) : Except IgnoreFault (Option (Pattern Empty)) :=
  let written := splitSegments text
  let directory := written.getLast? == some []
  let segments := collapse (openEnd (anchor written))
  if segments.isEmpty then .error (.invalidLine (String.ofList line))
  else
    match starsPattern? directory segments with
    | some pattern => .ok (some pattern)
    | none =>
      match segments.mapM readSegment with
      | .error .unclosedSet => .ok none
      | .error .danglingEscape => .error (.invalidLine (String.ofList line))
      | .ok segments =>
        match segmentsPattern? segments with
        | some pattern => .ok (some pattern)
        | none => .error .backwardRange

end IgnoreRule

/-- The rule in a line, if it holds one. -/
def parseRule (line : List Char) : Except IgnoreFault (Option IgnoreRule) :=
  match IgnoreRule.trimLine line with
  | [] => .ok none
  | '#' :: _ => .ok none
  | ['/'] => .ok none
  | '!' :: text =>
    (IgnoreRule.rulePattern line text).map fun pattern => pattern.map (⟨false, ·⟩)
  | text => (IgnoreRule.rulePattern line text).map fun pattern => pattern.map (⟨true, ·⟩)

/-- The rules in the lines of an ignore file, in their order. -/
def parseRules (lines : List (List Char)) : Except IgnoreFault (List IgnoreRule) :=
  (lines.mapM parseRule).map fun rules => rules.filterMap id

/-- A path without the slash, or else the dot and slash, that it begins with. -/
def relativeToRoot : List Char → List Char
  | '/' :: rest => rest
  | '.' :: '/' :: rest => rest
  | path => path

/-- Whether the rules ignore a path: the last one that matches decides. -/
def isIgnored (rules : List IgnoreRule) (path : String) : Bool :=
  let path := relativeToRoot path.toList
  ((rules.reverse.find? fun rule => rule.pattern.isFoundIn path).map (·.ignores)).getD false

end TraceInquest
