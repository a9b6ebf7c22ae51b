import OscalValidation.Decimal.Power

set_option autoImplicit false

/-! # Numbers of double precision

A number with a fraction or an exponent is a binary floating-point number of double
precision. It is kept as what it denotes: a sign, a mantissa and a power of two. A finite
number is in *standard form*: its mantissa is below `2 ^ 53`, its exponent at least `-1074`,
and the mantissa is at least `2 ^ 52` unless the exponent is the least one. Two numbers in
standard form that denote the same nonzero value are therefore equal as data.

`Binary64.ofRatio` rounds a quotient of natural numbers to the nearest such number, a tie
going to the even mantissa; everything that makes a number goes through it.
-/

namespace OscalValidation

/-- **A number of double precision.** -/
inductive Binary64
  /-- The outcome of an operation without a value. -/
  | nan
  /-- Larger, or smaller, than every finite number. -/
  | infinity (negative : Bool)
  | finite (negative : Bool) (mantissa : Nat) (exponent : Int)
deriving DecidableEq, Inhabited

namespace Binary64

/-- The least exponent of a finite number. -/
def minExponent : Int := -1074

/-- The greatest exponent of a finite number. -/
def maxExponent : Int := 971

def zero (negative : Bool) : Binary64 := .finite negative 0 minExponent

/-! ## Rounding -/

/-- The quotient rounded to the nearest integer, a half going to the even one. -/
def divideToEven (num den : Nat) : Nat :=
  let quotient := num / den
  let remainder := num % den
  if 2 * remainder < den then quotient
  else if den < 2 * remainder then quotient + 1
  else quotient + quotient % 2

/-- The greatest `k` with `base ^ k ≤ num / den`, from the estimate `k` or `k + 1`. -/
def settleLog (base num den : Nat) (estimate : Int) : Int :=
  if den * base.pow estimate.toNat ≤ num * base.pow (-estimate).toNat then estimate
  else estimate - 1

/-- The greatest `k` with `2 ^ k ≤ num / den`, for positive `num` and `den`. -/
def floorLog2 (num den : Nat) : Int :=
  settleLog 2 num den ((num.log2 : Int) - (den.log2 : Int))

/-- The number nearest to `± num / den`. -/
def ofRatio (negative : Bool) (num den : Nat) : Binary64 :=
  if num = 0 then zero negative
  else
    let exponent := max (floorLog2 num den - 52) minExponent
    let mantissa := divideToEven (num * twoTo (-exponent).toNat) (den * twoTo exponent.toNat)
    let (mantissa, exponent) :=
      if mantissa = twoTo 53 then (twoTo 52, exponent + 1) else (mantissa, exponent)
    if maxExponent < exponent then .infinity negative else .finite negative mantissa exponent

/-- How many decimal digits a natural number has; zero has one. -/
def decimalLength (n : Nat) : Nat := (Nat.toDigits 10 n).length

/-- The number nearest to `± digits * 10 ^ exponent`. Beyond the range of finite numbers the
power of ten is not computed. -/
def ofDecimal (negative : Bool) (digits : Nat) (exponent : Int) : Binary64 :=
  let magnitude := exponent + decimalLength digits
  if digits = 0 ∨ magnitude < -330 then zero negative
  else if 320 < magnitude then .infinity negative
  else ofRatio negative (digits * tenTo exponent.toNat) (tenTo (-exponent).toNat)

/-- The number nearest to an integer. -/
def ofInt (n : Int) : Binary64 := ofRatio (n < 0) n.natAbs 1

/-! ## Comparison with integers -/

/-- The number is the integer `n`. -/
def equalsInt : Binary64 → Int → Bool
  | .finite negative mantissa exponent, n =>
      mantissa * twoTo exponent.toNat == n.natAbs * twoTo (-exponent).toNat &&
        (n == 0 || negative == decide (n < 0))
  | _, _ => false

def isIntegral : Binary64 → Bool
  | .finite _ mantissa exponent => mantissa % twoTo (-exponent).toNat == 0
  | _ => false

/-- Equality of values: the two zeros are equal, and `nan` differs from itself. -/
def sameValue : Binary64 → Binary64 → Bool
  | .nan, _ | _, .nan => false
  | .finite _ 0 _, .finite _ 0 _ => true
  | a, b => a == b

end Binary64

end OscalValidation
