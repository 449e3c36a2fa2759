import SqlLayout.Text.Printable

/-!
# Quoted texts

Messages and listings show a text in quotes, with everything unprintable escaped. The quote is an
apostrophe, or a double quote where that spares an escape.
-/

namespace SqlLayout.Text

/-- The last `count` hexadecimal digits of a number. -/
def hexDigits : (count : Nat) → (n : Nat) → Text
  | 0, _ => []
  | count + 1, n => hexDigits count (n / 16) ++ [Nat.digitChar (n % 16)]

/-- A character as it stands inside the given quotes. -/
def escape (quote c : Char) : Text :=
  if c = quote ∨ c = '\\' then ['\\', c]
  else if c = '\n' then ['\\', 'n']
  else if c = '\r' then ['\\', 'r']
  else if c = '\t' then ['\\', 't']
  else if isPrintable c then [c]
  else if c.toNat < 0x100 then '\\' :: 'x' :: hexDigits 2 c.toNat
  else if c.toNat < 0x10000 then '\\' :: 'u' :: hexDigits 4 c.toNat
  else '\\' :: 'U' :: hexDigits 8 c.toNat

/-- The quote for a text: an apostrophe, unless the text has one and has no double quote. -/
def quoteFor (t : Text) : Char :=
  if t.contains '\x27' && !t.contains '\x22' then '\x22' else '\x27'

def quoted (t : Text) : Text :=
  let quote := quoteFor t
  quote :: t.flatMap (escape quote) ++ [quote]

end SqlLayout.Text
