import OscalValidation.Decimal.Binary64

set_option autoImplicit false

/-! # The shortest decimal of a number

A number is written with the fewest digits that read back as the same number, and of
several such decimals with the nearest. For each count of digits the two neighbours of the
number on the decimal grid of that count are tried; the first grid with a neighbour inside
the interval of values that round to the number decides.
-/

namespace OscalValidation

namespace Binary64

/-- A positive decimal: `digits * 10 ^ exponent`. -/
structure Decimal where
  /-- The digits, read as a natural number. -/
  digits : Nat
  exponent : Int
deriving DecidableEq, Inhabited

/-- The greatest `k` with `10 ^ k ≤ num / den`, for positive `num` and `den`. -/
def floorLog10 (num den : Nat) : Int :=
  settleLog 10 num den ((decimalLength num : Int) - (decimalLength den : Int))

/-- The decimal of the grid `10 ^ grid` that reads back as `mantissa * 2 ^ exponent`, if there
is one. The quarter of a unit in the last place is the unit of the computation. -/
def onGrid? (mantissa : Nat) (exponent grid : Int) : Option Decimal :=
  let quarter := exponent - 2
  let scale := twoTo quarter.toNat * tenTo (-grid).toNat
  let den := twoTo (-quarter).toNat * tenTo grid.toNat
  let value := 4 * mantissa * scale
  let least := (if mantissa = twoTo 52 ∧ minExponent < exponent then 4 * mantissa - 1
    else 4 * mantissa - 2) * scale
  let greatest := (4 * mantissa + 2) * scale
  let readsBack (digits : Nat) : Bool :=
    if mantissa % 2 = 0 then least ≤ digits * den && digits * den ≤ greatest
    else least < digits * den && digits * den < greatest
  let below := value / den
  match readsBack below, readsBack (below + 1) with
  | true, true =>
      let middle := (2 * below + 1) * den
      if 2 * value < middle then some ⟨below, grid⟩
      else if middle < 2 * value then some ⟨below + 1, grid⟩
      else some ⟨below + below % 2, grid⟩
  | true, false => some ⟨below, grid⟩
  | false, true => some ⟨below + 1, grid⟩
  | false, false => none

/-- **The shortest decimal that reads back as `mantissa * 2 ^ exponent`,** for a positive
mantissa. Seventeen digits always suffice. -/
def shortest (mantissa : Nat) (exponent : Int) : Decimal :=
  let top := floorLog10 (mantissa * twoTo exponent.toNat) (twoTo (-exponent).toNat)
  ((List.range 17).findSome? fun (n : Nat) => onGrid? mantissa exponent (top - n)).getD ⟨0, 0⟩

/-! ## Layout -/

/-- How the decimal of a finite number and the other values are spelled. -/
structure Layout where
  /-- A number below `10 ^ positionalTo` may be written without an exponent … -/
  positionalTo : Int
  /-- … if it is not below `10 ^ positionalFrom`. -/
  positionalFrom : Int
  /-- The least number of digits of an exponent. -/
  exponentWidth : Nat
  nan : String
  infinity : String

/-- The digits of a natural number without the zeros at its end. -/
def significantDigits (n : Nat) : List Char :=
  ((Nat.toDigits 10 n).reverse.dropWhile (· == '0')).reverse

/-- The text of a positive decimal. Without an exponent it always has a fraction. -/
def Layout.decimal (layout : Layout) (d : Decimal) : List Char :=
  let digits := significantDigits d.digits
  let point := d.exponent + decimalLength d.digits
  if layout.positionalFrom < point ∧ point ≤ layout.positionalTo then
    if point ≤ 0 then ['0', '.'] ++ List.replicate (-point).toNat '0' ++ digits
    else if digits.length ≤ point.toNat then
      digits ++ List.replicate (point.toNat - digits.length) '0' ++ ['.', '0']
    else digits.take point.toNat ++ '.' :: digits.drop point.toNat
  else
    let power := point - 1
    let powerDigits := Nat.toDigits 10 power.natAbs
    let fraction := match digits.drop 1 with
      | [] => []
      | rest => '.' :: rest
    digits.take 1 ++ fraction ++ ['e', if power < 0 then '-' else '+'] ++
      List.replicate (layout.exponentWidth - powerDigits.length) '0' ++ powerDigits

def Layout.text (layout : Layout) : Binary64 → String
  | .nan => layout.nan
  | .infinity negative => if negative then "-" ++ layout.infinity else layout.infinity
  | .finite negative mantissa exponent =>
      let digits := if mantissa = 0 then ['0', '.', '0']
        else layout.decimal (shortest mantissa exponent)
      String.ofList (if negative then '-' :: digits else digits)

/-- Numbers in prose and in markup: an exponent from `10 ^ 16` on and below `10 ^ -4`. -/
def plainLayout : Layout := ⟨16, -4, 2, "nan", "inf"⟩

/-- Numbers in documents: as in prose, with the document's own words for what is not finite. -/
def documentLayout : Layout := ⟨16, -4, 2, "NaN", "Infinity"⟩

end Binary64

end OscalValidation
