/-! # The shortest decimal of a double

Many decimals are nearer to a double than to every other double; they fill an interval around it,
whose ends belong to it if the significand of the double is even. Of these decimals the one with
the fewest digits is chosen, and of several with as few digits the one nearest to the double.

* **`Binary`** — the exact value of a positive double; **`Binary.interval`** its interval.
* **`shortest interval`** — the digits of the chosen decimal and its exponent.
* **`plainText x`** — a double as a decimal text: positional for exponents from −4 to 15, with at
  least one digit behind the point, and with a signed exponent of at least two digits else. -/

namespace TraceInquest.Decimal

/-- The value `significand * 2 ^ exponent` of a positive double. -/
structure Binary where
  significand : Nat
  exponent : Int
  /-- Whether the next smaller double is only half as far away as the next larger one. -/
  narrowBelow : Bool
  deriving DecidableEq, Repr

/-- The value of a finite double, without its sign, from its bits. -/
def Binary.ofBits (bits : UInt64) : Binary :=
  let biased : Nat := bits.toNat / Nat.pow 2 52 % Nat.pow 2 11
  let fraction : Nat := bits.toNat % Nat.pow 2 52
  if biased = 0 then ⟨fraction, -1074, false⟩
  else ⟨Nat.pow 2 52 + fraction, (biased : Int) - 1075, fraction = 0 ∧ 1 < biased⟩

/-- Reals around a value, all as fractions with one denominator. -/
structure Interval where
  low : Nat
  value : Nat
  high : Nat
  denominator : Nat
  /-- Whether the ends belong to the interval. -/
  closed : Bool
  deriving DecidableEq, Repr

/-- The reals that are nearer to a double than to every other double. -/
def Binary.interval (x : Binary) : Interval :=
  let scale := Nat.pow 2 x.exponent.toNat
  { low := (4 * x.significand - (if x.narrowBelow then 1 else 2)) * scale
    value := 4 * x.significand * scale
    high := (4 * x.significand + 2) * scale
    denominator := 4 * Nat.pow 2 (-x.exponent).toNat
    closed := x.significand % 2 = 0 }

/-- Whether the decimal `digits * 10 ^ exponent` lies in the interval. -/
def Interval.holds (interval : Interval) (digits : Nat) (exponent : Int) : Bool :=
  let here := digits * Nat.pow 10 exponent.toNat * interval.denominator
  let low := interval.low * Nat.pow 10 (-exponent).toNat
  let high := interval.high * Nat.pow 10 (-exponent).toNat
  (low < here && here < high) || (interval.closed && (low == here || here == high))

/-- The least exponent of a power of ten that is above the value. -/
def Interval.magnitude (interval : Interval) : Int :=
  if interval.denominator ≤ interval.value then
    ((Nat.toDigits 10 (interval.value / interval.denominator)).length : Int)
  else
    match (List.range 400).find? fun places =>
        interval.denominator ≤ interval.value * Nat.pow 10 (places + 1) with
    | some places => -(places : Int)
    | none => 0

/-- The multiple of `10 ^ exponent` next below the value. -/
def Interval.below (interval : Interval) (exponent : Int) : Nat :=
  interval.value * Nat.pow 10 (-exponent).toNat / (interval.denominator * Nat.pow 10 exponent.toNat)

/-- Of the two multiples of `10 ^ exponent` around the value, the one that lies in the interval,
and the nearer one, or the even one if they are equally near, if both do. -/
def Interval.neighbour? (interval : Interval) (exponent : Int) : Option Nat :=
  let digits := interval.below exponent
  match interval.holds digits exponent, interval.holds (digits + 1) exponent with
  | true, true =>
    let value := 2 * interval.value * Nat.pow 10 (-exponent).toNat
    let middle := (2 * digits + 1) * interval.denominator * Nat.pow 10 exponent.toNat
    if value < middle ∨ (value = middle ∧ digits % 2 = 0) then some digits
    else some (digits + 1)
  | true, false => some digits
  | false, true => some (digits + 1)
  | false, false => none

/-- The digits and the exponent of the decimal with the fewest digits that lies in the interval of
a positive value; seventeen digits are always enough. -/
def shortest (interval : Interval) : Nat × Int :=
  let magnitude := interval.magnitude
  let tried := (List.range 17).findSome? fun count =>
    let exponent := magnitude - (count + 1 : Nat)
    (interval.neighbour? exponent).map fun digits => (digits, exponent)
  tried.getD (interval.below (magnitude - 17), magnitude - 17)

/-- The text without the zeros at its end. -/
def dropTrailingZeros (digits : List Char) : List Char :=
  (digits.reverse.dropWhile (· == '0')).reverse

/-- Digits and an exponent of ten as a text, without a sign. -/
def layout (digits : Nat) (exponent : Int) : String :=
  let all := Nat.toDigits 10 digits
  let shown := dropTrailingZeros all
  let point : Int := all.length + exponent
  let zeros (count : Int) : List Char := List.replicate count.toNat '0'
  if -4 < point ∧ point ≤ 16 then
    let whole := shown.take point.toNat ++ zeros (point - shown.length)
    let fraction := zeros (-point) ++ shown.drop point.toNat
    String.ofList ((if whole.isEmpty then ['0'] else whole) ++ '.' ::
      (if fraction.isEmpty then ['0'] else fraction))
  else
    let power := point - 1
    let powerDigits := Nat.toDigits 10 power.natAbs
    String.ofList (shown.take 1 ++ (if shown.length ≤ 1 then [] else '.' :: shown.drop 1) ++
      'e' :: (if power < 0 then '-' else '+') ::
        ((if powerDigits.length < 2 then ['0'] else []) ++ powerDigits))

/-- A double as the shortest decimal text that denotes it. -/
def plainText (x : Float) : String :=
  if x.isNaN then "nan"
  else
    let bits := x.toBits
    let sign := if bits.toNat < Nat.pow 2 63 then "" else "-"
    if x.isInf then sign ++ "inf"
    else
      let value := Binary.ofBits bits
      if value.significand = 0 then sign ++ "0.0"
      else
        let (digits, exponent) := shortest value.interval
        sign ++ layout digits exponent

end TraceInquest.Decimal
