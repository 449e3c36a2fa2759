import SqlLayout.Text.Basic

/-!
# Dates and times

Days of the calendar, times of the day, and moments, which are both together. Each has two written
forms: `text` is for reading, and `literal` is how the value is shown in a message or inside a
list.
-/

namespace SqlLayout

structure Day where
  year : Nat
  month : Nat
  day : Nat
deriving DecidableEq

structure TimeOfDay where
  hour : Nat
  minute : Nat
  second : Nat
  microsecond : Nat
deriving DecidableEq

structure Moment where
  day : Day
  time : TimeOfDay
  /-- How many minutes the clock is ahead of universal time, where that is known. -/
  offset : Option Int
deriving DecidableEq

/-- A number with at least the given count of digits. -/
def Text.paddedNat (count n : Nat) : Text :=
  let digits := ofNat n
  List.replicate (count - digits.length) '0' ++ digits

def Text.arguments (ns : List Nat) : Text :=
  List.intercalate ", ".toList (ns.map ofNat)

namespace Day

def isLeap (year : Nat) : Bool :=
  year % 4 = 0 && (year % 100 ≠ 0 || year % 400 = 0)

def daysIn (year month : Nat) : Nat :=
  if month = 2 then if isLeap year then 29 else 28
  else if month = 4 ∨ month = 6 ∨ month = 9 ∨ month = 11 then 30
  else 31

/-- Whether the calendar has a day. It begins with the year 1 and has years of four digits. -/
def isValid (d : Day) : Bool :=
  1 ≤ d.year && d.year ≤ 9999 && 1 ≤ d.month && d.month ≤ 12 && 1 ≤ d.day &&
    d.day ≤ daysIn d.year d.month

def numbers (d : Day) : List Nat :=
  [d.year, d.month, d.day]

/-- A day with dashes between its numbers. -/
def text (d : Day) : Text :=
  Text.paddedNat 4 d.year ++ '-' :: Text.paddedNat 2 d.month ++ '-' :: Text.paddedNat 2 d.day

def literal (d : Day) : Text :=
  "datetime.date(".toList ++ Text.arguments d.numbers ++ [')']

end Day

namespace TimeOfDay

/-- The numbers of a time; zeros at the end are left out down to the minute. -/
def numbers (t : TimeOfDay) : List Nat :=
  [t.hour, t.minute] ++
    if t.microsecond ≠ 0 then [t.second, t.microsecond]
    else if t.second ≠ 0 then [t.second]
    else []

/-- A time with colons between its numbers; microseconds only where there are some. -/
def text (t : TimeOfDay) : Text :=
  Text.paddedNat 2 t.hour ++ ':' :: Text.paddedNat 2 t.minute ++ ':' :: Text.paddedNat 2 t.second ++
    if t.microsecond = 0 then [] else '.' :: Text.paddedNat 6 t.microsecond

def literal (t : TimeOfDay) : Text :=
  "datetime.time(".toList ++ Text.arguments t.numbers ++ [')']

end TimeOfDay

namespace Moment

/-- An offset with its sign, in hours and minutes. -/
def offsetText (minutes : Int) : Text :=
  (if minutes < 0 then '-' else '+') ::
    Text.paddedNat 2 (minutes.natAbs / 60) ++ ':' :: Text.paddedNat 2 (minutes.natAbs % 60)

/-- An offset as it is shown: in seconds, and a negative one as a day less and seconds more. -/
def offsetLiteral (minutes : Int) : Text :=
  let seconds (n : Int) : Text := "seconds=".toList ++ Text.ofInt (60 * n)
  if minutes = 0 then "datetime.timezone.utc".toList
  else
    "datetime.timezone(datetime.timedelta(".toList ++
      (if minutes < 0 then "days=-1, ".toList ++ seconds (minutes + 1440) else seconds minutes) ++
      "))".toList

/-- A moment: the day, the time, and the offset where it is known. -/
def text (m : Moment) : Text :=
  m.day.text ++ ' ' :: m.time.text ++ m.offset.elim [] offsetText

def literal (m : Moment) : Text :=
  "datetime.datetime(".toList ++ Text.arguments (m.day.numbers ++ m.time.numbers) ++
    m.offset.elim [] (fun minutes => ", tzinfo=".toList ++ offsetLiteral minutes) ++ [')']

end Moment

end SqlLayout
