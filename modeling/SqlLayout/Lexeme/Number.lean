import SqlLayout.Text.WordChar

/-!
# Numbers

A number is hexadecimal (`0x1f`), binary (`0b101`) or decimal with an optional minus sign and an
optional fraction. It ends at a word boundary: `12ab` holds no number, and `1.5a` holds only `1`.
-/

namespace SqlLayout

def isHexDigit (c : Char) : Bool :=
  c.isDigit || ('a' ≤ c && c ≤ 'f') || ('A' ≤ c && c ≤ 'F')

def isBinaryDigit (c : Char) : Bool :=
  c == '0' || c == '1'

/-- The size of a non-empty run of digits that ends at a word boundary. -/
def digitsSize? (isDigit : Char → Bool) (t : Text) : Option Nat :=
  let n := (t.takeWhile isDigit).length
  if n = 0 ∨ Text.startsWord (t.drop n) then none else some n

/-- The size of a decimal number without sign. A fraction that does not end at a word boundary
is left out. -/
def decimalSize? (t : Text) : Option Nat :=
  let n := (t.takeWhile Char.isDigit).length
  let fraction? : Option Nat :=
    match t.drop n with
    | '.' :: rest => if n = 0 then none else digitsSize? Char.isDigit rest
    | _ => none
  match fraction? with
  | some m => some (n + 1 + m)
  | none => digitsSize? Char.isDigit t

/-- The size of a number written in a base that its first two characters announce. -/
def basedSize? : Text → Option Nat
  | '0' :: 'x' :: rest => (digitsSize? isHexDigit rest).map (· + 2)
  | '0' :: 'b' :: rest => (digitsSize? isBinaryDigit rest).map (· + 2)
  | _ => none

def numberSize? (t : Text) : Option Nat :=
  basedSize? t <|>
    match t with
    | '-' :: rest => (decimalSize? rest).map (· + 1)
    | _ => decimalSize? t

end SqlLayout
