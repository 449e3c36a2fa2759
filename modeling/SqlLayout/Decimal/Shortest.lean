import SqlLayout.Decimal.Binary

/-!
# Shortest decimals

A floating point number is written with the fewest digits that read back as the same number, and
of all such decimals with the nearest one. The digits come from a search over decimal grids, the
coarsest first: on each grid only the two neighbours of the number can be nearest.
-/

namespace SqlLayout.Binary64

/-- A decimal number `digits * 10 ^ power`. -/
structure Decimal where
  digits : Nat
  power : Int

/-- The numbers that round to a given one lie between `low` and `high`, in units of a quarter of
its last place; the ends belong to them if the mantissa is even. -/
structure Basin where
  low : Nat
  middle : Nat
  high : Nat
  closed : Bool
  /-- One unit is `unitNum / unitDen`. -/
  unitNum : Nat
  unitDen : Nat

/-- The basin of a positive number. Below a power of two the next number is only half as far. -/
def basin (mantissa : Nat) (exponent : Int) : Basin :=
  let (unitNum, unitDen) := scaled 1 1 2 (exponent - 2)
  { low :=
      if mantissa = fullMantissa ∧ exponent > leastExponent then 4 * mantissa - 1
      else 4 * mantissa - 2
    middle := 4 * mantissa
    high := 4 * mantissa + 2
    closed := mantissa % 2 == 0
    unitNum, unitDen }

/-- Whether a decimal lies in the basin, given the grid that it lies on as a fraction. -/
def Basin.holds (b : Basin) (gridNum gridDen digits : Nat) : Bool :=
  let value := digits * gridNum * b.unitDen
  let low := b.low * b.unitNum * gridDen
  let high := b.high * b.unitNum * gridDen
  if b.closed then low ≤ value && value ≤ high else low < value && value < high

/-- The nearest of the neighbours on one grid that lie in the basin. -/
def Basin.onGrid? (b : Basin) (power : Int) : Option Decimal :=
  let (gridNum, gridDen) := scaled 1 1 10 power
  let num := b.middle * b.unitNum * gridDen
  let den := b.unitDen * gridNum
  let below := num / den
  let above := below + 1
  match b.holds gridNum gridDen below, b.holds gridNum gridDen above with
  | true, true => some ⟨roundDiv num den, power⟩
  | true, false => some ⟨below, power⟩
  | false, true => some ⟨above, power⟩
  | false, false => none

/-- Searches grids of falling power; the last one is taken in any case. -/
def Basin.search (b : Basin) (power : Int) : (finer : Nat) → Decimal
  | 0 => (b.onGrid? power).getD ⟨0, power⟩
  | finer + 1 => (b.onGrid? power).getD (b.search (power - 1) finer)

/-- The power of ten of a positive number's first digit. -/
def leadingPower (mantissa : Nat) (exponent : Int) : Int :=
  let (num, den) := scaled (mantissa * Nat.pow 10 330) 1 2 exponent
  ((Text.ofNat (num / den)).length : Int) - 331

/-- The shortest decimal that reads back as a positive number; 17 digits always suffice. -/
def shortest (mantissa : Nat) (exponent : Int) : Decimal :=
  (basin mantissa exponent).search (leadingPower mantissa exponent) 16

/-- An exponent with its sign and at least two digits. -/
def exponentText (e : Int) : Text :=
  (if e < 0 then '-' else '+') ::
    (if e.natAbs < 10 then '0' :: Text.ofNat e.natAbs else Text.ofNat e.natAbs)

/-- A decimal is written positionally from a ten-thousandth up to ten to the sixteenth, always
with a point; beyond that with an exponent. -/
def decimalText (d : Decimal) : Text :=
  let all := Text.ofNat d.digits
  let digits := all.take 1 ++ Text.dropEndWhile (· == '0') (all.drop 1)
  let e : Int := (all.length : Int) - 1 + d.power
  if e < -4 ∨ 16 ≤ e then
    (match digits with
      | [] => []
      | [c] => [c]
      | c :: cs => c :: '.' :: cs) ++ 'e' :: exponentText e
  else if e < 0 then
    '0' :: '.' :: List.replicate ((-e).toNat - 1) '0' ++ digits
  else
    let whole := digits.take (e.toNat + 1)
    let fraction := digits.drop (e.toNat + 1)
    whole ++ List.replicate (e.toNat + 1 - whole.length) '0' ++
      '.' :: (if fraction.isEmpty then ['0'] else fraction)

def text : Binary64 → Text
  | finite negative mantissa exponent =>
    (if negative then ['-'] else []) ++
      if mantissa = 0 then "0.0".toList else decimalText (shortest mantissa exponent)
  | infinite negative => if negative then "-inf".toList else "inf".toList
  | undefined => "nan".toList

end SqlLayout.Binary64
