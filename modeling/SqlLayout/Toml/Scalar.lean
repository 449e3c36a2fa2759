import SqlLayout.Value

/-!
# Scalars of a TOML document

Strings and numbers. A reader takes a value from the head of a text and gives it with the rest, or
nothing if the text does not begin with such a value. What has the form of a value may still be
refused.
-/

namespace SqlLayout.Toml

inductive Fault where
  /-- It breaks the rules of the format. -/
  | malformed
  /-- It holds an integer with too many digits. -/
  | digits (fault : DigitFault)
deriving DecidableEq

/-- Whether a character separates the words of a line. -/
def isSpace (c : Char) : Bool :=
  c == ' ' || c == '\t'

/-- Whether a character must not stand in a string or comment. -/
def isControl (c : Char) : Bool :=
  (c.toNat < 32 && c ≠ '\t') || c.toNat == 127

/-- Whether a character must not stand in a string of several lines. -/
def isLineControl (c : Char) : Bool :=
  isControl c && c ≠ '\n'

def skipSpaces (t : Text) : Text :=
  t.dropWhile isSpace

/-- The character with the code that the first `count` characters write. -/
def hexChar? (count : Nat) (t : Text) : Option Char :=
  let code := t.take count
  if code.length = count ∧ code.all (fun c => (Text.hexDigit? c).isSome) then
    let n := Text.valueIn 16 code
    if n.isValidChar then some (Char.ofNat n) else none
  else none

/-- The character that an escape stands for and the size of the escape behind its backslash. -/
def escape? : Text → Option (Char × Nat)
  | 'b' :: _ => some ('\x08', 1)
  | 't' :: _ => some ('\t', 1)
  | 'n' :: _ => some ('\n', 1)
  | 'f' :: _ => some ('\x0c', 1)
  | 'r' :: _ => some ('\r', 1)
  | '\x22' :: _ => some ('\x22', 1)
  | '\\' :: _ => some ('\\', 1)
  | 'u' :: rest => (hexChar? 4 rest).map (·, 5)
  | 'U' :: rest => (hexChar? 8 rest).map (·, 9)
  | _ => none

/-- The rest of a string in double quotes on one line. -/
def basicString? (t : Text) : Option (Text × Text) :=
  match t with
  | [] => none
  | '\x22' :: rest => some ([], rest)
  | '\\' :: rest =>
    match escape? rest with
    | some (c, n) => (basicString? (rest.drop n)).map fun (s, rest) => (c :: s, rest)
    | none => none
  | c :: rest =>
    if isControl c then none
    else (basicString? rest).map fun (s, rest) => (c :: s, rest)
termination_by t.length
decreasing_by all_goals (simp only [List.length_drop, List.length_cons]; omega)

/-- The size of what a backslash at the end of a line takes away: the line end and all blanks
behind it. -/
def lineJoin? (t : Text) : Option Nat :=
  let spaces := (t.takeWhile isSpace).length
  match t.drop spaces with
  | [] => if spaces = 0 then none else some spaces
  | '\n' :: rest => some (spaces + 1 + (rest.takeWhile fun c => isSpace c || c == '\n').length)
  | _ => none

/-- The rest of a string in threefold double quotes, its end included. -/
def longBasicString? (t : Text) : Option (Text × Text) :=
  match t with
  | [] => none
  | '\x22' :: '\x22' :: '\x22' :: rest => some ([], rest)
  | '\\' :: rest =>
    match lineJoin? rest with
    | some n => longBasicString? (rest.drop n)
    | none =>
      match escape? rest with
      | some (c, n) => (longBasicString? (rest.drop n)).map fun (s, rest) => (c :: s, rest)
      | none => none
  | c :: rest =>
    if isLineControl c then none
    else (longBasicString? rest).map fun (s, rest) => (c :: s, rest)
termination_by t.length
decreasing_by all_goals (simp only [List.length_drop, List.length_cons]; omega)

/-- The rest of a string in apostrophes on one line. -/
def literalString? (t : Text) : Option (Text × Text) :=
  let s := t.takeWhile (· ≠ '\x27')
  match t.drop s.length with
  | [] => none
  | _ :: rest => if s.any isControl then none else some (s, rest)

/-- The rest of a string in threefold apostrophes, its end included. -/
def longLiteralString? (t : Text) : Option (Text × Text) :=
  match Text.find? ['\x27', '\x27', '\x27'] t with
  | none => none
  | some n => if (t.take n).any isLineControl then none else some (t.take n, t.drop (n + 3))

/-- A string of several lines: a line end at its start is dropped, and up to two quotes directly
behind its end belong to it. -/
def longString? (quote : Char) (read : Text → Option (Text × Text)) (t : Text) :
    Option (Text × Text) :=
  let start := if t.startsWith ['\n'] then t.drop 1 else t
  (read start).map fun (s, rest) =>
    let extra := (rest.takeWhile (· == quote)).take 2
    (s ++ extra, rest.drop extra.length)

/-- The digits behind a first one, with single underscores between digits left out. -/
def moreDigits (isDigit : Char → Bool) : Text → Text × Text
  | [] => ([], [])
  | '_' :: c :: cs =>
    if isDigit c then
      let (ds, rest) := moreDigits isDigit cs
      (c :: ds, rest)
    else ([], '_' :: c :: cs)
  | c :: cs =>
    if isDigit c then
      let (ds, rest) := moreDigits isDigit cs
      (c :: ds, rest)
    else ([], c :: cs)

def digits? (isDigit : Char → Bool) : Text → Option (Text × Text)
  | [] => none
  | c :: cs =>
    if isDigit c then
      let (ds, rest) := moreDigits isDigit cs
      some (c :: ds, rest)
    else none

/-- A number in the base that its first two characters announce. It may have any number of
digits. -/
def basedNumber? : Text → Option (Except Fault Value × Text)
  | '0' :: 'x' :: rest => (digits? (fun c => (Text.hexDigit? c).isSome) rest).map (number 16)
  | '0' :: 'o' :: rest => (digits? (fun c => '0' ≤ c && c ≤ '7') rest).map (number 8)
  | '0' :: 'b' :: rest => (digits? (fun c => c == '0' || c == '1') rest).map (number 2)
  | _ => none
where
  /-- The integer with the given digits. -/
  number (base : Nat) (r : Text × Text) : Except Fault Value × Text :=
    (.ok (.int (Text.valueIn base r.1)), r.2)

/-- A sign and the text behind it; no sign counts as plus. -/
def sign : Text → Bool × Text
  | '-' :: rest => (true, rest)
  | '+' :: rest => (false, rest)
  | t => (false, t)

/-- The integer part of a decimal number, which begins with a zero only if it is zero. -/
def wholePart? : Text → Option (Text × Text)
  | '0' :: rest => some (['0'], rest)
  | t => digits? Char.isDigit t

def fraction? : Text → Option (Text × Text)
  | '.' :: rest => digits? Char.isDigit rest
  | _ => none

def exponent? : Text → Option (Int × Text)
  | c :: rest =>
    if c = 'e' ∨ c = 'E' then
      let (negative, rest) := sign rest
      (digits? Char.isDigit rest).map fun (ds, rest) =>
        (if negative then -(Text.valueIn 10 ds : Int) else Text.valueIn 10 ds, rest)
    else none
  | [] => none

def decimalInteger (negative : Bool) (digits : Text) : Except Fault Value :=
  if digitLimit < digits.length then .error (.digits (.reading digits.length))
  else
    let n : Int := Text.valueIn 10 digits
    .ok (.int (if negative then -n else n))

/-- A decimal number: an integer, or a float if it has a fraction or an exponent. -/
def decimalNumber? (t : Text) : Option (Except Fault Value × Text) :=
  let (negative, unsigned) := sign t
  (wholePart? unsigned).map fun (whole, rest) =>
    let fraction := fraction? rest
    let rest := (fraction.map Prod.snd).getD rest
    let exponent := exponent? rest
    let rest := (exponent.map Prod.snd).getD rest
    if fraction.isNone ∧ exponent.isNone then (decimalInteger negative whole, rest)
    else
      let places := (fraction.map Prod.fst).getD []
      let power := (exponent.map Prod.fst).getD 0 - places.length
      (.ok (.float (.ofDecimal negative (Text.valueIn 10 (whole ++ places)) power)), rest)

def specialNumber? (t : Text) : Option (Except Fault Value × Text) :=
  let (negative, unsigned) := sign t
  if unsigned.startsWith "inf".toList then
    some (.ok (.float (.infinite negative)), unsigned.drop 3)
  else if unsigned.startsWith "nan".toList then some (.ok (.float .undefined), unsigned.drop 3)
  else none

def number? (t : Text) : Option (Except Fault Value × Text) :=
  basedNumber? t <|> decimalNumber? t <|> specialNumber? t

def bool? (t : Text) : Option (Except Fault Value × Text) :=
  if t.startsWith "true".toList then some (.ok (.bool true), t.drop 4)
  else if t.startsWith "false".toList then some (.ok (.bool false), t.drop 5)
  else none

end SqlLayout.Toml
