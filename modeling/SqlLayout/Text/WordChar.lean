import SqlLayout.Text.Letter
import SqlLayout.Text.Numeral

/-!
# Word characters

Words are made of letters, numerals and underscores. A word boundary stands between a word
character and anything else, the ends of the text included.
-/

namespace SqlLayout.Text

/-- Whether a character can stand in a word. -/
def isWordChar (c : Char) : Bool :=
  c == '_' || isLetter c || isNumeral c

def startsWord : Text → Bool
  | [] => false
  | c :: _ => isWordChar c

/-- Whether a word boundary stands behind the first `n` characters of a text, for `n` above 0. -/
def boundaryAt (t : Text) (n : Nat) : Bool :=
  startsWord (t.drop (n - 1)) != startsWord (t.drop n)

end SqlLayout.Text
