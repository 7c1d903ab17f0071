/-! # Strict reading of UTF-8

Bytes are read as UTF-8 without mercy: overlong forms, surrogates and values above U+10FFFF are
faults, and the first fault is reported with its place, its extent and its kind.

* **`decode bytes`** — the characters, or the first fault.
* **`Fault.message`** — what is said of a fault. -/

namespace TraceInquest.Text.Utf8

/-- Why a sequence of bytes is not UTF-8. -/
inductive Reason where
  /-- No character begins with this byte. -/
  | invalidStart
  /-- The bytes end inside a character. -/
  | truncated
  /-- A byte does not continue the character begun before it. -/
  | invalidContinuation
  deriving DecidableEq, Repr

/-- The first place at which bytes are not UTF-8. -/
structure Fault where
  /-- The byte at that place. -/
  byte : UInt8
  /-- How many bytes precede it. -/
  start : Nat
  /-- How many bytes the fault covers. -/
  length : Nat
  /-- What is wrong with them. -/
  reason : Reason
  deriving DecidableEq, Repr

/-- The wording of each kind of fault. -/
def Reason.wording : Reason → String
  | .invalidStart => "invalid start byte"
  | .truncated => "unexpected end of data"
  | .invalidContinuation => "invalid continuation byte"

/-- A byte as two hexadecimal digits. -/
def byteDigits (byte : UInt8) : String :=
  String.ofList [Nat.digitChar (byte.toNat / 16), Nat.digitChar (byte.toNat % 16)]

/-- What is said of a fault; one that covers several bytes names their places only. -/
def Fault.message (fault : Fault) : String :=
  let what :=
    if fault.length ≤ 1 then
      "byte 0x" ++ byteDigits fault.byte ++ " in position " ++ toString fault.start
    else
      "bytes in position " ++ toString fault.start ++ "-" ++
        toString (fault.start + fault.length - 1)
  "'utf-8' codec can't decode " ++ what ++ ": " ++ fault.reason.wording

/-- Whether a byte continues a character. -/
def continues (byte : UInt8) : Bool := 0x80 ≤ byte && byte < 0xC0

/-- Whether `second` may follow the first byte `lead` of a character of three or four bytes:
overlong forms, surrogates and values above U+10FFFF are excluded here. -/
def admitsSecond (lead second : UInt8) : Bool :=
  continues second &&
    (if lead = 0xE0 then 0xA0 ≤ second
     else if lead = 0xED then second < 0xA0
     else if lead = 0xF0 then 0x90 ≤ second
     else if lead = 0xF4 then second < 0x90
     else true)

/-- The six low bits of a continuing byte. -/
def payload (byte : UInt8) : Nat := byte.toNat % 64

/-- Reads bytes of which the first has `start` bytes before it; `done` holds the characters read
so far, last one first. -/
def decodeFrom : Nat → List Char → List UInt8 → Except Fault (List Char)
  | _, done, [] => .ok done.reverse
  | start, done, lead :: rest =>
    let fault (length : Nat) (reason : Reason) : Except Fault (List Char) :=
      .error ⟨lead, start, length, reason⟩
    if lead < 0x80 then
      decodeFrom (start + 1) (Char.ofNat lead.toNat :: done) rest
    else if lead < 0xC2 then fault 1 .invalidStart
    else if lead < 0xE0 then
      match rest with
      | [] => fault 1 .truncated
      | second :: rest =>
        if continues second then
          decodeFrom (start + 2)
            (Char.ofNat (lead.toNat % 32 * 64 + payload second) :: done) rest
        else fault 1 .invalidContinuation
    else if lead < 0xF0 then
      match rest with
      | [] => fault 1 .truncated
      | second :: rest =>
        if admitsSecond lead second then
          match rest with
          | [] => fault 2 .truncated
          | third :: rest =>
            if continues third then
              decodeFrom (start + 3)
                (Char.ofNat ((lead.toNat % 16 * 64 + payload second) * 64 + payload third) ::
                  done) rest
            else fault 2 .invalidContinuation
        else fault 1 .invalidContinuation
    else if lead < 0xF5 then
      match rest with
      | [] => fault 1 .truncated
      | second :: rest =>
        if admitsSecond lead second then
          match rest with
          | [] => fault 2 .truncated
          | third :: rest =>
            if continues third then
              match rest with
              | [] => fault 3 .truncated
              | fourth :: rest =>
                if continues fourth then
                  decodeFrom (start + 4)
                    (Char.ofNat (((lead.toNat % 8 * 64 + payload second) * 64 +
                      payload third) * 64 + payload fourth) :: done) rest
                else fault 3 .invalidContinuation
            else fault 2 .invalidContinuation
        else fault 1 .invalidContinuation
    else fault 1 .invalidStart

/-- The characters that the bytes spell, or the first fault in them. -/
def decode (bytes : List UInt8) : Except Fault (List Char) := decodeFrom 0 [] bytes

/-- The bytes that spell a text. -/
def encode (text : String) : List UInt8 := text.toUTF8.data.toList

end TraceInquest.Text.Utf8
