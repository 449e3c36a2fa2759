import SqlLayout.Calendar
import SqlLayout.Decimal.Shortest
import SqlLayout.DigitLimit
import SqlLayout.Text.Numeral
import SqlLayout.Text.Quoted

/-!
# Values

The values that placeholders and settings can have, and their two written forms: `display` is what
a placeholder is replaced by, `literal` is how the value is shown in a message or inside a list. A
value can be written in either form only if none of its integers has too many digits.
-/

namespace SqlLayout

/-- A value from a settings file or a caller. -/
inductive Value where
  | none
  | bool (b : Bool)
  | int (n : Int)
  | float (x : Binary64)
  | text (t : Text)
  | day (d : Day)
  | time (t : TimeOfDay)
  | moment (m : Moment)
  | list (vs : List Value)
  | table (entries : List (Text × Value))

namespace Value

mutual

/-- A value as it is shown in a message: texts are quoted. -/
def literal : Value → Text
  | none => "None".toList
  | bool b => if b then "True".toList else "False".toList
  | int n => Text.ofInt n
  | float x => x.text
  | text t => t.quoted
  | day d => d.literal
  | time t => t.literal
  | moment m => m.literal
  | list vs => '[' :: literals vs ++ [']']
  | table es => '\x7b' :: entryLiterals es ++ ['\x7d']

def literals : List Value → Text
  | [] => []
  | [v] => v.literal
  | v :: w :: vs => v.literal ++ ", ".toList ++ literals (w :: vs)

def entryLiterals : List (Text × Value) → Text
  | [] => []
  | [e] => entryLiteral e
  | e :: f :: es => entryLiteral e ++ ", ".toList ++ entryLiterals (f :: es)

def entryLiteral : Text × Value → Text
  | (key, v) => key.quoted ++ ": ".toList ++ v.literal

end

/-- A value as it replaces a placeholder: texts stand as they are, dates and times for reading. -/
def display : Value → Text
  | text t => t
  | day d => d.text
  | time t => t.text
  | moment m => m.text
  | v => v.literal

mutual

/-- Whether no integer in a value has too many digits. -/
def isWritable : Value → Bool
  | int n => withinDigitLimit n
  | list vs => areWritable vs
  | table es => entriesWritable es
  | _ => true

def areWritable : List Value → Bool
  | [] => true
  | v :: vs => v.isWritable && areWritable vs

def entriesWritable : List (Text × Value) → Bool
  | [] => true
  | (_, v) :: es => v.isWritable && entriesWritable es

end

/-- The text that replaces a placeholder, if the value can be written. -/
def written (v : Value) : Except DigitFault Text :=
  if v.isWritable then .ok v.display else .error .writing

end Value

end SqlLayout
