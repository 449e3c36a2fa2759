import SqlLayout.Binding
import SqlLayout.Text.Blank

/-!
# Integers on the command line

An integer may have blanks around it, a sign, decimal digits of any script, and single
underscores between its digits. The ASCII separator controls do not count as blanks here.
-/

namespace SqlLayout

/-- Whether a character may stand around an integer. -/
def isIntegerBlank (c : Char) : Bool :=
  Text.isBlank c && !(28 ≤ c.toNat && c.toNat ≤ 31)

/-- The values of digits that are divided by single underscores at most. -/
def underscoredDigits? : Text → Option (List Nat)
  | [] => none
  | [c] => (Text.decimalValue? c).map ([·])
  | c :: '_' :: cs => (Text.decimalValue? c).bind fun n => (underscoredDigits? cs).map (n :: ·)
  | c :: cs => (Text.decimalValue? c).bind fun n => (underscoredDigits? cs).map (n :: ·)

def readInteger? (t : Text) : Option Int :=
  let body := Text.dropEndWhile isIntegerBlank (t.dropWhile isIntegerBlank)
  let (negative, digits) : Bool × Text :=
    match body with
    | '-' :: rest => (true, rest)
    | '+' :: rest => (false, rest)
    | _ => (false, body)
  match underscoredDigits? digits with
  | none => none
  | some ds =>
    if digitLimit < ds.length then none
    else
      let n : Int := Bindings.decimalNumber ds
      some (if negative then -n else n)

end SqlLayout
