/-!
# Texts

A text is a list of characters, so lengths, columns and offsets all count characters.
-/

namespace SqlLayout

/-- A piece of text, character by character. -/
abbrev Text := List Char

namespace Text

/-- Whether a character lies in one of the given ranges of code points, both ends included. -/
def within (ranges : List (Nat × Nat)) (c : Char) : Bool :=
  ranges.any fun r => r.1 ≤ c.toNat && c.toNat ≤ r.2

def startsWith (t start : Text) : Bool :=
  start.isPrefixOf t

/-- Drops the longest run of characters in a class from the end of a text. -/
def dropEndWhile (p : Char → Bool) (t : Text) : Text :=
  (t.reverse.dropWhile p).reverse

/-- The number of characters in front of the first occurrence of a text. -/
def find? (wanted : Text) : Text → Option Nat
  | [] => if wanted.isEmpty then some 0 else none
  | c :: cs => if startsWith (c :: cs) wanted then some 0 else (find? wanted cs).map (· + 1)

/-- Fills a text with spaces on the left up to a width. -/
def padLeft (width : Nat) (t : Text) : Text :=
  List.replicate (width - t.length) ' ' ++ t

/-- Fills a text with spaces on the right up to a width. -/
def padRight (width : Nat) (t : Text) : Text :=
  t ++ List.replicate (width - t.length) ' '

def ofNat (n : Nat) : Text :=
  Nat.toDigits 10 n

def ofInt : Int → Text
  | .ofNat n => ofNat n
  | .negSucc n => '-' :: ofNat (n + 1)

end Text

end SqlLayout
