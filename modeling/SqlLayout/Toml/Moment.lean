import SqlLayout.Toml.Scalar

/-!
# Dates and times of a TOML document

A day, a time of the day, or both with a letter or a space between them and the offset from
universal time behind them. What does not fit behind a day is left for others to read.
-/

namespace SqlLayout.Toml

def fixedDigits? (count : Nat) (t : Text) : Option (Nat × Text) :=
  let digits := t.take count
  if digits.length = count ∧ digits.all Char.isDigit then
    some (Text.valueIn 10 digits, t.drop count)
  else none

/-- Two digits that write a number within bounds. -/
def twoDigits? (low high : Nat) (t : Text) : Option (Nat × Text) :=
  match fixedDigits? 2 t with
  | some (n, rest) => if low ≤ n ∧ n ≤ high then some (n, rest) else none
  | none => none

def markedDigits? (mark : Char) (low high : Nat) : Text → Option (Nat × Text)
  | [] => none
  | c :: rest => if c = mark then twoDigits? low high rest else none

/-- A year, a month and a day; whether the month has that day is not looked at. -/
def day? (t : Text) : Option (Day × Text) := do
  let (year, t) ← fixedDigits? 4 t
  let (month, t) ← markedDigits? '-' 1 12 t
  let (day, t) ← markedDigits? '-' 1 31 t
  return (⟨year, month, day⟩, t)

/-- The microseconds that the digits behind a point write, of which only six count. -/
def microseconds (t : Text) : Nat × Text :=
  match t with
  | '.' :: rest =>
    let digits := rest.takeWhile Char.isDigit
    let counted := digits.take 6
    if digits.isEmpty then (0, t)
    else (Text.valueIn 10 (counted ++ List.replicate (6 - counted.length) '0'), rest.drop digits.length)
  | _ => (0, t)

def time? (t : Text) : Option (TimeOfDay × Text) := do
  let (hour, t) ← twoDigits? 0 23 t
  let (minute, t) ← markedDigits? ':' 0 59 t
  let (second, t) ← markedDigits? ':' 0 59 t
  let (microsecond, t) := microseconds t
  return (⟨hour, minute, second, microsecond⟩, t)

/-- Hours and minutes as minutes. -/
def clock? (t : Text) : Option (Int × Text) := do
  let (hours, t) ← twoDigits? 0 23 t
  let (minutes, t) ← markedDigits? ':' 0 59 t
  return (60 * hours + minutes, t)

/-- The offset from universal time, if there is one. -/
def offset (t : Text) : Option Int × Text :=
  match t with
  | 'Z' :: rest | 'z' :: rest => (some 0, rest)
  | '+' :: rest => (clock? rest).elim (none, t) fun (n, rest) => (some n, rest)
  | '-' :: rest => (clock? rest).elim (none, t) fun (n, rest) => (some (-n), rest)
  | _ => (none, t)

def timeOnDay? : Text → Option (TimeOfDay × Text)
  | c :: rest => if c = 'T' ∨ c = 't' ∨ c = ' ' then time? rest else none
  | [] => none

/-- A day with or without a time on it. A day that the calendar does not have is a fault. -/
def dated? (t : Text) : Option (Except Fault Value × Text) :=
  match day? t with
  | none => none
  | some (day, rest) =>
    let (value, rest) : Value × Text :=
      match timeOnDay? rest with
      | none => (.day day, rest)
      | some (time, rest) =>
        let (offset, rest) := offset rest
        (.moment ⟨day, time, offset⟩, rest)
    some (if day.isValid then .ok value else .error .malformed, rest)

def moment? (t : Text) : Option (Except Fault Value × Text) :=
  dated? t <|> (time? t).map fun (time, rest) => (.ok (.time time), rest)

end SqlLayout.Toml
