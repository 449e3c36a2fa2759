import SqlLayout.Text.Numeral
import SqlLayout.Token
import SqlLayout.Value

/-!
# Placeholder values

A caller binds values to placeholders by name or in order. A placeholder that nothing is bound to
keeps its own text. Two things can go wrong: the digits of a numbered placeholder are not a
decimal number, or a number has too many digits to be read or written.
-/

namespace SqlLayout

/-- The values that a caller supplies. -/
inductive Bindings where
  /-- Nothing is bound. -/
  | none
  /-- Values by name; a name occurs once. -/
  | named (entries : List (Text × Value))
  /-- Values in order: the first one is number 0. -/
  | ordered (values : List Value)
  /-- A bare text, which binds nothing. -/
  | text (t : Text)

/-- Why a placeholder has no text. -/
inductive BindingFault where
  /-- Its number holds a digit without a place value. -/
  | notDecimal (key : Text)
  /-- Its number begins with too many decimal digits, or its value has too many. -/
  | digits (fault : DigitFault)
deriving DecidableEq

/-- The wording of a fault. A long key is cut. -/
def BindingFault.message : BindingFault → Text
  | notDecimal key => "invalid literal for int() with base 10: ".toList ++ key.quoted.take 200
  | digits fault => fault.message

namespace Bindings

/-- Whether a key is a number: one or more digits. -/
def isNumber (key : Text) : Bool :=
  !key.isEmpty && key.all Text.isDigit

def decimalNumber (digits : List Nat) : Nat :=
  digits.foldl (fun n d => 10 * n + d) 0

/-- Reads the number of a placeholder. The decimal digits at its start are counted before anything
behind them is looked at. -/
def readNumber (key : Text) : Except BindingFault Nat :=
  let digits := key.takeWhile fun c => (Text.decimalValue? c).isSome
  if digitLimit < digits.length then .error (.digits (.reading digits.length))
  else if digits.length < key.length then .error (.notDecimal key)
  else .ok (decimalNumber (digits.filterMap Text.decimalValue?))

/-- The text of a value that is bound to a placeholder, or the placeholder's own text. -/
def textOr (own : Text) : Option Value → Except BindingFault Text
  | .none => .ok own
  | some v => v.written.mapError .digits

/-- The text for a placeholder, and how many values the unnumbered placeholders have used behind
it. -/
def resolve (b : Bindings) (used : Nat) (t : Token) : Except BindingFault (Text × Nat) :=
  match b, t.key with
  | .named entries, some key => (textOr t.text (entries.lookup key)).map (·, used)
  | .ordered values, some key =>
    if isNumber key then
      match readNumber key with
      | .ok n => (textOr t.text values[n]?).map (·, used)
      | .error e => .error e
    else .ok (t.text, used)
  | .ordered values, .none =>
    (textOr t.text values[used]?).map (·, if used < values.length then used + 1 else used)
  | _, _ => .ok (t.text, used)

end Bindings

end SqlLayout
