import TraceInquest.Decimal.Nearest

/-! # Values given for settings, and what may be wrong with them

A setting may be given as a value of some kind, or as a text from the environment. Integers and
numbers are read from texts generously. A text that is not an integer in plain notation is tidied
and read once more: blanks around it, a plus sign, leading zeros, a fraction of zeros and single
underscores between digits do not matter.

* **`SettingValue`** — a value given for a setting.
* **`SettingProblem`** — why it will not do, and what is said then.
* **`SettingValue.asText`**, **`asInteger`**, **`asNumber`** — the value as what is wanted. -/

namespace TraceInquest

/-- A value given for a setting. -/
inductive SettingValue where
  /-- An explicit nothing. -/
  | null
  | boolean (value : Bool)
  | integer (value : Int)
  /-- A number that is written with a fraction. -/
  | number (value : Float)
  | text (value : String)
  /-- A list or a table. -/
  | compound

/-- Why a value will not do for a setting. -/
inductive SettingProblem where
  | missing
  | notText
  | notInteger
  | unreadableInteger
  | fractional
  | notFinite
  | integerTooLong
  | belowMinimum (minimum : Int)
  | notNumber
  | unreadableNumber
  deriving DecidableEq, Repr

/-- What is said of a problem, with its kind in brackets. -/
def SettingProblem.message : SettingProblem → String
  | .missing => "Field required [missing]"
  | .notText => "Input should be a valid string [string_type]"
  | .notInteger => "Input should be a valid integer [int_type]"
  | .unreadableInteger =>
    "Input should be a valid integer, unable to parse string as an integer [int_parsing]"
  | .fractional =>
    "Input should be a valid integer, got a number with a fractional part [int_from_float]"
  | .notFinite => "Input should be a finite number [finite_number]"
  | .integerTooLong =>
    "Unable to parse input string as an integer, exceeded maximum size [int_parsing_size]"
  | .belowMinimum minimum =>
    "Input should be greater than or equal to " ++ toString minimum ++ " [greater_than_equal]"
  | .notNumber => "Input should be a valid number [float_type]"
  | .unreadableNumber =>
    "Input should be a valid number, unable to parse string as a number [float_parsing]"

/-! ## Reading texts -/

/-- The blanks that may stand around a number. -/
def isPadding (c : Char) : Bool :=
  let n := c.toNat
  n == 32 || (9 ≤ n && n ≤ 13) || n == 0x85 || n == 0xA0 || n == 0x1680 ||
    (0x2000 ≤ n && n ≤ 0x200A) || n == 0x2028 || n == 0x2029 || n == 0x202F || n == 0x205F ||
    n == 0x3000

/-- The text without the blanks around it. -/
def trimPadding (text : List Char) : List Char :=
  ((text.dropWhile isPadding).reverse.dropWhile isPadding).reverse

/-- The number that ASCII digits denote. -/
def decimalValue (digits : List Char) : Nat :=
  digits.foldl (fun value c => value * 10 + (c.toNat - '0'.toNat)) 0

/-- Whether a text is a run of ASCII digits. -/
def isDigits (text : List Char) : Bool := !text.isEmpty && text.all Char.isDigit

/-- The text without underscores, unless one stands at an end or beside another one. -/
def dropUnderscores? (text : List Char) : Option (List Char) :=
  if text.head? == some '_' || text.getLast? == some '_' then none
  else if (text.zip text.tail).any fun pair => pair.1 == '_' && pair.2 == '_' then none
  else some (text.filter (· != '_'))

/-- Whether a number is negative by its sign, and the text behind the sign. -/
def splitSign : List Char → Bool × List Char
  | '-' :: rest => (true, rest)
  | '+' :: rest => (false, rest)
  | rest => (false, rest)

/-- The longest integer that is read from a text, in digits. -/
def maxIntegerLength : Nat := 4300

/-- The integer that a text denotes in plain notation: a minus sign or none, and digits, the first
of which is a zero only if it is the only one. Too many digits are too many whatever comes behind
them. -/
def plainInteger (text : List Char) : Except SettingProblem Int :=
  let negative := text.head? == some '-'
  let body := if negative then text.drop 1 else text
  let digits := body.takeWhile Char.isDigit
  if digits.head? == some '0' then
    if body.length = 1 then .ok 0 else .error .unreadableInteger
  else if maxIntegerLength < digits.length then .error .integerTooLong
  else if isDigits body then
    .ok (if negative then -(decimalValue digits : Int) else decimalValue digits)
  else .error .unreadableInteger

/-- What is left of a number behind a leading zero when the zeros and underscores at its start are
dropped, the last of which was `last`. That one stays if nothing is left of the number, or only a
fraction. Behind zeros there may still be a minus sign. -/
def dropZeros? (last : Char) : List Char → Option (List Char)
  | [] => some [last]
  | c :: rest =>
    if c = '0' ∨ c = '_' then dropZeros? c rest
    else if c = '.' then some (last :: c :: rest)
    else if c.isDigit ∨ c = '-' then some (c :: rest)
    else none

/-- The text without its leading zeros, if it starts with a digit. -/
def dropLeadingZeros? : List Char → Option (List Char)
  | [] => none
  | c :: rest =>
    if c = '0' then dropZeros? c rest else if c.isDigit then some (c :: rest) else none

/-- The text without a fraction that is made of zeros, and of at least one. -/
def dropZeroFraction (text : List Char) : List Char :=
  let fraction := (text.dropWhile (· != '.')).drop 1
  if !fraction.isEmpty && fraction.all (· == '0') then text.takeWhile (· != '.') else text

/-- An integer without the blanks around it, a plus sign, leading zeros, a fraction of zeros and
underscores between digits. What is not tidy enough for that may stay as it is. -/
def tidyInteger? (text : List Char) : Option (List Char) :=
  let trimmed := trimPadding text
  let (negative, body) := splitSign trimmed
  (dropLeadingZeros? body).map fun rest =>
    let whole := dropZeroFraction rest
    let digits := (dropUnderscores? whole).getD whole
    if negative then '-' :: digits else digits

/-- The integer that a text denotes, as it stands or tidied. Only as it stands it may be too
long. -/
def readInteger (text : String) : Except SettingProblem Int :=
  match plainInteger text.toList with
  | .ok n => .ok n
  | .error .integerTooLong => .error .integerTooLong
  | .error _ =>
    match (tidyInteger? text.toList).map plainInteger with
    | some (.ok n) => .ok n
    | _ => .error .unreadableInteger

/-- The double nearest to `digits * 10 ^ exponent`. What is far beyond the range of doubles is
infinite or zero. -/
def doubleOfDecimal (digits : Nat) (exponent : Int) : Float :=
  let magnitude := ((Nat.toDigits 10 digits).length : Int) + exponent
  if digits = 0 ∨ magnitude < -400 then 0.0
  else if 400 < magnitude then 1.0 / 0.0
  else Decimal.nearestDouble (digits * Nat.pow 10 exponent.toNat) (Nat.pow 10 (-exponent).toNat)

/-- The exponent that a text denotes, if it is one: nothing, or a letter, a sign and digits. -/
def readExponent? : List Char → Option Int
  | [] => some 0
  | mark :: rest =>
    let (negative, digits) := splitSign rest
    if (mark == 'e' || mark == 'E') && isDigits digits then
      some (if negative then -(decimalValue digits : Int) else decimalValue digits)
    else none

/-- The number without a sign that a text denotes, if it is one. -/
def readUnsigned? (text : List Char) : Option Float :=
  let word := String.ofList (text.map Char.toLower)
  if word = "inf" ∨ word = "infinity" then some (1.0 / 0.0)
  else if word = "nan" then some (0.0 / 0.0)
  else
    let whole := text.takeWhile Char.isDigit
    let afterWhole := text.dropWhile Char.isDigit
    let hasPoint := afterWhole.head? == some '.'
    let fraction := if hasPoint then (afterWhole.drop 1).takeWhile Char.isDigit else []
    let rest := if hasPoint then (afterWhole.drop 1).dropWhile Char.isDigit else afterWhole
    let digits := whole ++ fraction
    if digits.isEmpty then none
    else
      (readExponent? rest).map fun exponent =>
        doubleOfDecimal (decimalValue digits) (exponent - fraction.length)

/-- The number that a text denotes, if it is one. -/
def readNumber? (text : List Char) : Option Float :=
  let (negative, body) := splitSign text
  (readUnsigned? body).map fun value => if negative then -value else value

/-- The number that a text denotes. Blanks around it are tolerated, and so are underscores in it,
but not both together. -/
def readNumber (text : String) : Except SettingProblem Float :=
  match readNumber? (trimPadding text.toList) with
  | some value => .ok value
  | none =>
    match (dropUnderscores? text.toList).bind readNumber? with
    | some value => .ok value
    | none => .error .unreadableNumber

/-! ## Values as what is wanted -/

namespace SettingValue

/-- The value as a text; nothing but a text is one. -/
def asText : SettingValue → Except SettingProblem String
  | text value => .ok value
  | _ => .error .notText

/-- The integers that a number without a fraction stands for are those of 64 bits. -/
def integerOfNumber (value : Float) : Except SettingProblem Int :=
  if value.isNaN || value.isInf then .error .notFinite
  else if value.floor != value then .error .fractional
  else if value.abs < 9223372036854775808.0 then .ok value.toInt64.toInt
  else .error .integerTooLong

/-- The value as an integer; truth values are one and zero. -/
def asInteger : SettingValue → Except SettingProblem Int
  | boolean value => .ok (if value then 1 else 0)
  | integer value => .ok value
  | number value => integerOfNumber value
  | text value => readInteger value
  | _ => .error .notInteger

/-- The value as an integer that is not below a minimum. -/
def asIntegerFrom (minimum : Int) (value : SettingValue) : Except SettingProblem Int := do
  let n ← value.asInteger
  if n < minimum then .error (.belowMinimum minimum) else .ok n

/-- The double nearest to an integer, unless that is infinite. -/
def numberOfInteger (n : Int) : Except SettingProblem Float :=
  let size := doubleOfDecimal n.natAbs 0
  if size.isInf then .error .notNumber else .ok (if n < 0 then -size else size)

/-- The value as a number; truth values are one and zero. -/
def asNumber : SettingValue → Except SettingProblem Float
  | boolean value => .ok (if value then 1.0 else 0.0)
  | integer value => numberOfInteger value
  | number value => .ok value
  | text value => readNumber value
  | _ => .error .notNumber

/-- The value as a number or nothing. -/
def asOptionalNumber : SettingValue → Except SettingProblem (Option Float)
  | null => .ok none
  | value => value.asNumber.map some

end SettingValue

end TraceInquest
