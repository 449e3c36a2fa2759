import SqlLayout.Text.Basic

/-!
# Strings

A string runs from its opener to the closing quote. Inside it a doubled closing quote stands for
one, and in strings closed by an apostrophe or a double quote a backslash takes the next
character with it.
-/

namespace SqlLayout

/-- The quote that closes a string: a bracket closes a bracket, and otherwise the opener's last
character closes it. -/
def closerOf (opener : Text) : Char :=
  if opener = ['['] then ']' else opener.getLastD '\x27'

/-- Whether a backslash escapes in strings with this closing quote. -/
def backslashEscapes (closer : Char) : Bool :=
  closer == '\x27' || closer == '\x22'

/-- The number of characters from behind a string's opener through its closing quote. -/
def quoteSize? (closer : Char) : Text → Option Nat
  | [] => none
  | [c] => if c = closer then some 1 else none
  | c :: d :: rest =>
    if c = '\\' ∧ backslashEscapes closer then (quoteSize? closer rest).map (· + 2)
    else if c = closer then
      if d = closer then (quoteSize? closer rest).map (· + 2) else some 1
    else (quoteSize? closer (d :: rest)).map (· + 1)

end SqlLayout
