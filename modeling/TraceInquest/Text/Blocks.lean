import TraceInquest.Text.Lines
import TraceInquest.Text.Utf8

/-! # Reading a file line by line

A file that is read line by line is not decoded as a whole. Its bytes come in blocks, and the lines
that are complete so far are handed out before the next block is read. Bytes that are not UTF-8 end
the reading in the block in which they are met, when the lines of the blocks in front of it have
been handed out.

* **`blocks size bytes`** — the blocks in which bytes come.
* **`Utf8.decodeBlock bytes`** — the characters in a block and the bytes that are left over for the
  next one.
* **`readBlocks`** — the characters in blocks up to the first fault.
* **`readLines size bytes`** — the lines that are handed out. -/

namespace TraceInquest.Text

/-- How many bytes of a file come at once. -/
def blockSize : Nat := 8192

/-- The blocks in which bytes come; the last one is shorter, and may be empty. -/
def blocks (size : Nat) (bytes : List UInt8) : List (List UInt8) :=
  (List.range (bytes.length / size + 1)).map fun number => (bytes.drop (number * size)).take size

namespace Utf8

/-- Whether bytes are the first two of a surrogate. They are refused only when the third one is
there. -/
def isSurrogateStart : List UInt8 → Bool
  | [lead, second] => lead == 0xED && continues second
  | _ => false

/-- The characters in a block, and the bytes at its end that begin a character which goes on in the
next block. -/
def decodeBlock (bytes : List UInt8) : Except Fault (List Char × List UInt8) :=
  match decode bytes with
  | .ok text => .ok (text, [])
  | .error fault =>
    let rest := bytes.drop fault.start
    if fault.reason = .truncated ∨ isSurrogateStart rest then
      (decode (bytes.take fault.start)).map fun text => (text, rest)
    else .error fault

end Utf8

/-- The characters in blocks behind a text, and whether there was no fault in them: `rest` are the
bytes that were left over in front of the blocks. -/
def readBlocks (text : List Char) (rest : List UInt8) : List (List UInt8) → List Char × Bool
  | [] => (text, rest.isEmpty)
  | block :: blocks =>
    match Utf8.decodeBlock (rest ++ block) with
    | .ok (chars, rest) => readBlocks (text ++ chars) rest blocks
    | .error _ => (text, false)

/-- A text up to its last line feed. -/
def upToLastFeed (text : List Char) : List Char := (text.reverse.dropWhile (· != '\n')).reverse

/-- The complete lines at the start of a text that goes on. A carriage return at its end waits for
the character behind it. -/
def completeLines (text : List Char) : List (List Char) :=
  let known := if text.getLast? = some '\r' then text.dropLast else text
  terminatedLines (upToLastFeed (unifyNewlines known))

/-- The lines of a file, as they are handed out while it is read. -/
structure LinesRead where
  /-- The lines, each with the line feed that ends it; the last may have none. -/
  lines : List (List Char)
  /-- Whether the file was read to its end. -/
  whole : Bool

/-- The lines that bytes spell, up to the first fault. -/
def readLines (size : Nat) (bytes : List UInt8) : LinesRead :=
  match readBlocks [] [] (blocks size bytes) with
  | (text, true) => ⟨terminatedLines (unifyNewlines text), true⟩
  | (text, false) => ⟨completeLines text, false⟩

end TraceInquest.Text
