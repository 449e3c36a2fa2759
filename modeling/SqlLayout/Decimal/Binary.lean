import SqlLayout.Text.Basic

/-!
# Binary floating point numbers

The numbers of the 64-bit binary format, as mantissa and exponent, and the one that is nearest to
a decimal fraction. All arithmetic is exact; the only rounding is the last step, which goes to the
nearest number and from the middle to the even mantissa.
-/

namespace SqlLayout

/-- A 64-bit binary floating point number; a finite one is `± mantissa * 2 ^ exponent`. -/
inductive Binary64 where
  | finite (negative : Bool) (mantissa : Nat) (exponent : Int)
  | infinite (negative : Bool)
  | undefined
deriving DecidableEq

namespace Binary64

def leastExponent : Int := -1074

/-- The largest exponent of a number with a full mantissa of 53 bits. -/
def greatestExponent : Int := 971

def fullMantissa : Nat := Nat.pow 2 52

/-- The numerator and denominator of `num / den * base ^ power`. -/
def scaled (num den base : Nat) (power : Int) : Nat × Nat :=
  if 0 ≤ power then (num * base.pow power.toNat, den) else (num, den * base.pow (-power).toNat)

/-- A quotient rounded to the nearest integer, from the middle to the even one. -/
def roundDiv (num den : Nat) : Nat :=
  let q := num / den
  let r := num % den
  if 2 * r < den ∨ (2 * r = den ∧ q % 2 = 0) then q else q + 1

/-- The exponent that gives a positive quotient a mantissa of 53 bits, but no less than the least
exponent. -/
def exponentOf (num den : Nat) : Int :=
  let q : Int := (Nat.log2 num : Int) - (Nat.log2 den : Int) - 52
  let (n, d) := scaled num den 2 (-q)
  max (if n < fullMantissa * d then q - 1 else q) leastExponent

/-- The number nearest to a quotient. -/
def ofQuotient (negative : Bool) (num den : Nat) : Binary64 :=
  if num = 0 then .finite negative 0 leastExponent
  else
    let q := exponentOf num den
    let (n, d) := scaled num den 2 (-q)
    let m := roundDiv n d
    let (m, q) := if m = 2 * fullMantissa then (fullMantissa, q + 1) else (m, q)
    if q > greatestExponent then .infinite negative else .finite negative m q

/-- The number nearest to `± digits * 10 ^ power`. Powers far out of range give infinity or zero
without being computed. -/
def ofDecimal (negative : Bool) (digits : Nat) (power : Int) : Binary64 :=
  let top : Int := (Text.ofNat digits).length + power
  if digits ≠ 0 ∧ top > 310 then .infinite negative
  else if digits = 0 ∨ top < -330 then .finite negative 0 leastExponent
  else
    let (num, den) := scaled digits 1 10 power
    ofQuotient negative num den

end Binary64

end SqlLayout
