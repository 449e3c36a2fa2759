import SqlLayout.Text.Basic

/-!
# The limit on digits

An integer is neither read from nor written with more than a fixed number of decimal digits.
-/

namespace SqlLayout

/-- The most decimal digits that an integer is read from or written with. -/
def digitLimit : Nat := 4300

def withinDigitLimit (n : Int) : Bool :=
  n.natAbs < Nat.pow 10 digitLimit

inductive DigitFault where
  /-- So many digits are too many to be read. -/
  | reading (digits : Nat)
  /-- It has too many digits to be written. -/
  | writing
deriving DecidableEq

def DigitFault.message (f : DigitFault) : Text :=
  let count : Text :=
    match f with
    | reading digits => ": value has ".toList ++ Text.ofNat digits ++ " digits".toList
    | writing => []
  "Exceeds the limit (".toList ++ Text.ofNat digitLimit ++
    " digits) for integer string conversion".toList ++ count ++
    "; use sys.set_int_max_str_digits() to increase the limit".toList

end SqlLayout
