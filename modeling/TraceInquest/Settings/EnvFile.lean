import TraceInquest.Pattern.Search
import TraceInquest.Text.Blank
import TraceInquest.Text.Lines

/-! # Files of settings

A `.env` file holds bindings of names to texts, mostly one a line: `NAME=value`, with `export` in
front if one likes. A value may stand between quotes, where it can run over several lines and use
escapes; without quotes it ends with its line or at a comment. A name without an equals sign is
bound to nothing. A value may refer to other names, which stand in braces behind a dollar sign.
What cannot be read is passed over up to the end of its line.

* **`readStatement text`** — the statement at the start of a text.
* **`readStatements text`** — all statements of a file.
* **`bindings environment statements`** — the names with their values, references resolved. -/

namespace TraceInquest.EnvFile

open Pattern

/-- The parts of a statement that patterns capture. -/
inductive Part where
  | name
  | value
  | fallback
  deriving DecidableEq, Repr

/-- A statement of a file of settings. -/
inductive Statement where
  /-- A blank or a comment. -/
  | nothing
  /-- A name with its value, if it has one. -/
  | binding (name : String) (value? : Option String)
  /-- Something else, which starts on a line. -/
  | unreadable (line : Nat)
  deriving DecidableEq, Repr

/-! ## The parts of a statement -/

/-- The blanks within a line. -/
def isInlineBlank (c : Char) : Bool := Text.isBlank c && c != '\n'

/-- Any number of blanks within a line. -/
def inlineBlanks : Pattern Part := many isInlineBlank

/-- The word that may stand in front of a name. -/
def exportWord : Pattern Part :=
  optional (seq ["export", many1 isInlineBlank])

/-- A name between single quotes. -/
def quotedName : Pattern Part := seq ["'", capture .name (many1 (· != '\'')), "'"]

/-- A name without quotes. -/
def plainName : Pattern Part :=
  capture .name (many1 fun c => c != '=' && c != '#' && !Text.isBlank c)

/-- A value between quotes; a backslash takes the next character with it, so that a quote behind
it does not end the value. -/
def quotedValue (quote : Char) : Pattern Part :=
  seq [char quote,
    capture .value (repeated (oneOf
      [seq [char '\\', one fun _ => true], one fun c => c != quote && c != '\\'])),
    char quote]

/-- The rest of a line. -/
def lineRest : Pattern Part := capture .value (many (· != '\n'))

/-- A comment at the end of a line. -/
def comment : Pattern Part := optional (seq [inlineBlanks, "#", many (· != '\n')])

/-- The end of a line or of the file. -/
def lineEnd : Pattern Part := seq [inlineBlanks, oneOf ["\n", Pattern.atEnd]]

/-- A line up to its end. -/
def wholeLine : Pattern Part := seq [many (· != '\n'), optional "\n"]

/-- Where a comment begins in a value without quotes. -/
def commentStart : Pattern Part := seq [many1 Text.isBlank, "#"]

/-- A value without quotes: the rest of its line, up to a comment, without the blanks around it. -/
def plainValue (text : List Char) : List Char :=
  match commentStart.find? text with
  | some found => Text.strip (textBetween text found.start)
  | none => Text.strip text

/-- The characters that a backslash stands for together with the character behind it. -/
def doubleEscapes : List (Char × Char) :=
  [('\\', '\\'), ('\'', '\''), ('"', '"'), ('a', '\x07'), ('b', '\x08'), ('f', '\x0c'),
   ('n', '\n'), ('r', '\r'), ('t', '\t'), ('v', '\x0b')]

/-- The escapes of values between single quotes. -/
def singleEscapes : List (Char × Char) := [('\\', '\\'), ('\'', '\'')]

/-- A text with its escapes replaced by what they stand for. -/
def unescape (escapes : List (Char × Char)) : List Char → List Char
  | [] => []
  | [c] => [c]
  | c :: next :: rest =>
    if c = '\\' then
      match escapes.lookup next with
      | some meant => meant :: unescape escapes rest
      | none => c :: unescape escapes (next :: rest)
    else c :: unescape escapes (next :: rest)

/-! ## Statements -/

/-- What comes after the match of a pattern at the start of a text; without a match, the text. -/
def behind (pattern : Pattern Part) (text : List Char) : Except (List Char) (List Char) :=
  match pattern.matchStart? text with
  | some found => .ok found.stop.rest
  | none => .error text

/-- What a pattern captures at the start of a text, and what comes after it; without a match, the
text. -/
def read (pattern : Pattern Part) (part : Part) (text : List Char) :
    Except (List Char) (List Char × List Char) :=
  match pattern.matchStart? text with
  | some found => .ok (found.captured part, found.stop.rest)
  | none => .error text

/-- The name at the start of a text, if there is one and no comment. -/
def readName (text : List Char) : Except (List Char) (Option (List Char) × List Char) :=
  match text with
  | '#' :: _ => .ok (none, text)
  | '\'' :: _ => (read quotedName .name text).map fun found => (some found.1, found.2)
  | _ => (read plainName .name text).map fun found => (some found.1, found.2)

/-- The value at the start of a text. Blanks in front of it are passed over, but a comment may
start right behind them. -/
def readValue (text : List Char) : Except (List Char) (List Char × List Char) := do
  let start ← behind inlineBlanks text
  match start with
  | '\'' :: _ =>
    (read (quotedValue '\'') .value start).map fun found =>
      (unescape singleEscapes found.1, found.2)
  | '"' :: _ =>
    (read (quotedValue '"') .value start).map fun found =>
      (unescape doubleEscapes found.1, found.2)
  | _ => (read lineRest .value text).map fun found => (plainValue found.1, found.2)

/-- The statement at the start of a text that begins on a line, and what comes after it. What
cannot be read ends with the line on which reading failed. -/
def readStatement (line : Nat) (text : List Char) : Statement × List Char :=
  let reading : Except (List Char) (Statement × List Char) := do
    let text ← behind (many Text.isBlank) text
    if text.isEmpty then return (.nothing, [])
    let text ← behind exportWord text
    let (name, text) ← readName text
    let text ← behind inlineBlanks text
    let (value, text) ← match text with
      | '=' :: rest => do
        let (value, rest) ← readValue rest
        pure (some value, rest)
      | _ => pure (none, text)
    let text ← behind lineEnd (← behind comment text)
    match name with
    | some name => return (.binding (String.ofList name) (value.map String.ofList), text)
    | none => return (.nothing, text)
  match reading with
  | .ok done => done
  | .error text => (.unreadable line, ((behind wholeLine text).toOption).getD [])

/-- The statements of a text that begins on a line. -/
def readStatementsFrom (line : Nat) (text : List Char) : List Statement :=
  if text.isEmpty then []
  else
    let (statement, rest) := readStatement line text
    if rest.length < text.length then
      statement :: readStatementsFrom (line + (textBetween text rest).count '\n') rest
    else [statement]
  termination_by text.length

/-- The statements of a file of settings. -/
def readStatements (text : String) : List Statement := readStatementsFrom 1 text.toList

/-- The lines on which unreadable statements start. -/
def unreadableLines (statements : List Statement) : List Nat :=
  statements.filterMap fun
    | .unreadable line => some line
    | _ => none

/-! ## References -/

/-- A reference to a name, maybe with a text to fall back on. -/
def reference : Pattern Part :=
  seq ["$\x7b", capture .name (many fun c => c != '\x7d' && c != ':'),
    optional (seq [":-", capture .fallback (many (· != '\x7d'))]), "\x7d"]

/-- What a reference stands for: the value of its name, the empty text if that is bound to nothing,
or the fallback if the name is not bound. -/
def valueOfReference (environment : List (String × Option String)) (found : Found Part) :
    List Char :=
  match environment.lookup (String.ofList (found.captured .name)) with
  | some value => (value.getD "").toList
  | none => found.captured .fallback

/-- A text with references, given as places of finds, replaced by what they stand for. -/
def replaceFrom (environment : List (String × Option String)) (text : List Char) :
    List (Found Part) → List Char
  | [] => text
  | found :: rest =>
    textBetween text found.start ++ valueOfReference environment found ++
      replaceFrom environment found.stop.rest rest

/-- A value with its references replaced. -/
def resolve (environment : List (String × Option String)) (value : String) : String :=
  let text := value.toList
  String.ofList (replaceFrom environment text (reference.findAll text))

/-- The names that the values of statements refer to. -/
def referredNames (statements : List Statement) : List String :=
  statements.flatMap fun
    | .binding _ (some value) =>
      (reference.findAll value.toList).map fun found => String.ofList (found.captured .name)
    | _ => []

/-- The list with a name bound to a value, where it was bound before or else at its end. -/
def rebind (name : String) (value : Option String) :
    List (String × Option String) → List (String × Option String)
  | [] => [(name, value)]
  | (other, old) :: rest =>
    if other = name then (name, value) :: rest else (other, old) :: rebind name value rest

/-- The names bound by statements in order of first appearance, each with its last value. A
reference sees the names bound before it, and then the environment. -/
def bindings (environment : List (String × String)) (statements : List Statement) :
    List (String × Option String) :=
  statements.foldl (fun bound statement =>
    match statement with
    | .binding name value =>
      let seen := bound ++ environment.map fun pair => (pair.1, some pair.2)
      rebind name (value.map (resolve seen)) bound
    | _ => bound) []

end TraceInquest.EnvFile
