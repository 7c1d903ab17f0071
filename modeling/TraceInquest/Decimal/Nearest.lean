/-! # The double nearest to a fraction

A double is a significand of 53 bits times a power of two, with exponents between −1074 and 971.
The double nearest to a fraction is found in exact arithmetic; a fraction halfway between two
doubles goes to the one with the even significand.

* **`roundHalfEven a b`** — the integer nearest to a quotient.
* **`nearestDouble a b`** — the double nearest to a quotient. -/

namespace TraceInquest.Decimal

/-- The integer nearest to `a / b`; halfway between two integers, the even one. -/
def roundHalfEven (a b : Nat) : Nat :=
  let quotient := a / b
  let twice := 2 * (a % b)
  if twice < b ∨ (twice = b ∧ quotient % 2 = 0) then quotient else quotient + 1

/-- What is rounded is at most half a unit away. -/
theorem roundHalfEven_near (a b : Nat) (positive : 0 < b) :
    2 * a ≤ (2 * roundHalfEven a b + 1) * b ∧ (2 * roundHalfEven a b) * b ≤ 2 * a + b := by
  have division : b * (a / b) + a % b = a := Nat.div_add_mod a b
  have small : a % b < b := Nat.mod_lt a positive
  have expand : ∀ q : Nat, (2 * q + 1) * b = 2 * (b * q) + b := by intro q; grind
  have expand' : ∀ q : Nat, 2 * q * b = 2 * (b * q) := by intro q; grind
  have expand'' : b * (a / b + 1) = b * (a / b) + b := by grind
  unfold roundHalfEven
  simp only
  split
  · rw [expand, expand']
    omega
  · rw [expand, expand', expand'']
    omega

/-- The smallest exponent of a double. -/
def minExponent : Int := -1074

/-- The largest exponent of a double. -/
def maxExponent : Int := 971

/-- The double `significand * 2 ^ exponent`, where the significand has at most 53 bits, or 54 bits
of which the last is zero; infinity if the exponent is too large. -/
def doubleOf (significand : Nat) (exponent : Int) : Float :=
  let (significand, exponent) :=
    if Nat.pow 2 53 ≤ significand then (significand / 2, exponent + 1) else (significand, exponent)
  if maxExponent < exponent then 1.0 / 0.0
  else if significand < Nat.pow 2 52 then Float.ofBits significand.toUInt64
  else
    let fraction := significand - Nat.pow 2 52
    Float.ofBits ((exponent + 1075).toNat * Nat.pow 2 52 + fraction).toUInt64

/-- The exponent of the largest power of two that is at most `a / b`, both being positive. -/
def binaryExponent (a b : Nat) : Int :=
  let estimate : Int := (a.log2 : Int) - (b.log2 : Int)
  if b * Nat.pow 2 estimate.toNat ≤ a * Nat.pow 2 (-estimate).toNat then estimate else estimate - 1

/-- The double nearest to `a / b`, where `b` is positive. -/
def nearestDouble (a b : Nat) : Float :=
  if a = 0 then 0.0
  else
    let exponent := max minExponent (binaryExponent a b - 52)
    doubleOf (roundHalfEven (a * Nat.pow 2 (-exponent).toNat) (b * Nat.pow 2 exponent.toNat)) exponent

end TraceInquest.Decimal
