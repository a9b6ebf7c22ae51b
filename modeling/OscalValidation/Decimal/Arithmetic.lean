import OscalValidation.Decimal.Shortest

set_option autoImplicit false

/-! # Arithmetic of double precision

Expressions compute with numbers of double precision. Every operation has the exact result,
rounded once; the operations follow the standard where there is no finite result.
-/

namespace OscalValidation

namespace Binary64

/-! ## Exact values -/

/-- The integer `± mantissa * 2 ^ (exponent - unit)`, for a unit not above the exponent. -/
def scaled (negative : Bool) (mantissa : Nat) (exponent unit : Int) : Int :=
  let magnitude : Int := mantissa * twoTo (exponent - unit).toNat
  if negative then -magnitude else magnitude

/-- The number nearest to `value * 2 ^ exponent`; `zeroNegative` is the sign of zero. -/
def ofScaled (zeroNegative : Bool) (value exponent : Int) : Binary64 :=
  if value = 0 then zero zeroNegative
  else ofRatio (value < 0) (value.natAbs * twoTo exponent.toNat) (twoTo (-exponent).toNat)

/-! ## Operations -/

/-- The number with the other sign. -/
def negate : Binary64 → Binary64
  | .nan => .nan
  | .infinity negative => .infinity !negative
  | .finite negative mantissa exponent => .finite (!negative) mantissa exponent

def add : Binary64 → Binary64 → Binary64
  | .nan, _ | _, .nan => .nan
  | .infinity a, .infinity b => if a = b then .infinity a else .nan
  | .infinity a, .finite _ _ _ | .finite _ _ _, .infinity a => .infinity a
  | .finite a m p, .finite b n q =>
      let unit := min p q
      ofScaled (a && b) (scaled a m p unit + scaled b n q unit) unit

def subtract (x y : Binary64) : Binary64 := add x y.negate

def multiply : Binary64 → Binary64 → Binary64
  | .nan, _ | _, .nan => .nan
  | .infinity a, .infinity b => .infinity (a != b)
  | .infinity a, .finite b n _ | .finite b n _, .infinity a =>
      if n = 0 then .nan else .infinity (a != b)
  | .finite a m p, .finite b n q =>
      let magnitude := ofScaled false ((m * n : Nat) : Int) (p + q)
      if a != b then magnitude.negate else magnitude

def divide : Binary64 → Binary64 → Binary64
  | .nan, _ | _, .nan => .nan
  | .infinity _, .infinity _ => .nan
  | .infinity a, .finite b _ _ => .infinity (a != b)
  | .finite a _ _, .infinity b => zero (a != b)
  | .finite a m p, .finite b n q =>
      if n = 0 then (if m = 0 then .nan else .infinity (a != b))
      else
        let power := p - q
        ofRatio (a != b) (m * twoTo power.toNat) (n * twoTo (-power).toNat)

/-- The remainder of the division that cuts off the fraction of the quotient; it has the sign
of the dividend. -/
def remainder : Binary64 → Binary64 → Binary64
  | .nan, _ | _, .nan | .infinity _, _ => .nan
  | x, .infinity _ => x
  | .finite a m p, .finite b n q =>
      if n = 0 then .nan
      else
        let unit := min p q
        let rest := (scaled a m p unit).tmod (scaled b n q unit)
        ofScaled a rest unit

/-- The greatest integer that is not above `± mantissa * 2 ^ exponent`. -/
def floorInt (negative : Bool) (mantissa : Nat) (exponent : Int) : Int :=
  let magnitude : Int := mantissa * twoTo exponent.toNat
  (if negative then -magnitude else magnitude).fdiv (twoTo (-exponent).toNat)

/-- The greatest integer that is not above the number. -/
def floor : Binary64 → Binary64
  | .finite negative mantissa exponent =>
      ofScaled negative (floorInt negative mantissa exponent) 0
  | x => x

/-- The least integer that is not below the number. -/
def ceiling (x : Binary64) : Binary64 := (floor x.negate).negate

/-- The nearest integer; a half goes up. -/
def round : Binary64 → Binary64
  | .finite negative mantissa exponent =>
      let half := min exponent (-1)
      let shifted := scaled negative mantissa exponent half + twoTo (-1 - half).toNat
      ofScaled negative (shifted.fdiv (twoTo (-half).toNat)) 0
  | x => x

/-! ## Order -/

/-- The first number is below the second; `nan` is below nothing and above nothing. -/
def less : Binary64 → Binary64 → Bool
  | .nan, _ | _, .nan => false
  | .infinity a, .infinity b => a && !b
  | .infinity a, .finite _ _ _ => a
  | .finite _ _ _, .infinity b => !b
  | .finite a m p, .finite b n q =>
      let unit := min p q
      scaled a m p unit < scaled b n q unit

/-- The first number is not above the second. -/
def lessOrEqual (x y : Binary64) : Bool := less x y || x.sameValue y

/-! ## Text -/

/-- The integer that the number is, if it is one. -/
def toInt? : Binary64 → Option Int
  | x@(.finite negative mantissa exponent) =>
      if x.isIntegral then some (floorInt negative mantissa exponent) else none
  | _ => none

/-- The digits of a natural number, filled up with zeros in front to a width. -/
def paddedDigits (width n : Nat) : List Char :=
  let digits := Nat.toDigits 10 n
  List.replicate (width - digits.length) '0' ++ digits

/-- Digits with a point before the last `places`, without zeros and a point at the end. -/
def withPoint (places n : Nat) : List Char :=
  let digits := paddedDigits (places + 1) n
  let whole := digits.take (digits.length - places)
  match ((digits.drop (digits.length - places)).reverse.dropWhile (· == '0')).reverse with
  | [] => whole
  | fraction => whole ++ '.' :: fraction

/-- The text of a positive number: without an exponent from `10 ^ -5` to `10 ^ 9`, with fifteen
significant digits beyond. -/
def expressionDigits (mantissa : Nat) (exponent : Int) : List Char :=
  let num := mantissa * twoTo exponent.toNat
  let den := twoTo (-exponent).toNat
  let log := floorLog10 num den
  if tenTo 9 * den < num ∨ num * tenTo 5 < den then
    let grid : Int := log - 14
    let digits := divideToEven (num * tenTo (-grid).toNat) (den * tenTo grid.toNat)
    let (digits, log) := if tenTo 15 ≤ digits then (digits / 10, log + 1) else (digits, log)
    withPoint 14 digits ++ ['e', if log < 0 then '-' else '+'] ++ paddedDigits 2 log.natAbs
  else
    let whole : Int := if log < 0 then log + 1 else log
    let places : Nat := if 0 < whole then (14 - whole).toNat else (15 - whole).toNat
    withPoint places (divideToEven (num * tenTo places) den)

/-- **The text of a number in an expression.** An integer has no point, and zero no sign. -/
def expressionText : Binary64 → String
  | .nan => "NaN"
  | .infinity negative => if negative then "-Infinity" else "Infinity"
  | x@(.finite negative mantissa exponent) =>
      let digits := String.ofList
        ((if negative then ['-'] else []) ++ expressionDigits mantissa exponent)
      match x.toInt? with
      | some n => if -(twoTo 31) < n ∧ n < twoTo 31 - 1 then toString n else digits
      | none => digits

end Binary64

end OscalValidation
