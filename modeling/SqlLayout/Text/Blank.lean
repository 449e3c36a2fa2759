import SqlLayout.Text.Basic

/-!
# Blanks

Blanks separate the words of a text. This file says which characters are blank and how a text is
trimmed, cut into words, and has its runs of blanks collapsed.
-/

namespace SqlLayout.Text

/-- The blank characters: the ASCII controls from tab to carriage return and from the file
separator on, the space, next line, no-break space, and the Unicode spaces and line separators. -/
def isBlank (c : Char) : Bool :=
  let n := c.toNat
  (9 ≤ n && n ≤ 13) || (28 ≤ n && n ≤ 32) || n == 0x85 || n == 0xa0 || n == 0x1680 ||
    (0x2000 ≤ n && n ≤ 0x200a) || n == 0x2028 || n == 0x2029 || n == 0x202f || n == 0x205f ||
    n == 0x3000

def isAllBlank (t : Text) : Bool :=
  t.all isBlank

def startsBlank : Text → Bool
  | [] => false
  | c :: _ => isBlank c

def trimStart (t : Text) : Text :=
  t.dropWhile isBlank

def trimEnd (t : Text) : Text :=
  dropEndWhile isBlank t

def trim (t : Text) : Text :=
  trimEnd (trimStart t)

/-- Writes every run of blanks as one space. -/
def collapse : Text → Text
  | [] => []
  | c :: cs =>
    if isBlank c then
      if startsBlank cs then collapse cs else ' ' :: collapse cs
    else c :: collapse cs

/-- The maximal runs of characters that are not blank. -/
def words : Text → List Text
  | [] => []
  | c :: cs =>
    if isBlank c then words cs
    else if cs.isEmpty || startsBlank cs then [c] :: words cs
    else
      match words cs with
      | [] => [[c]]
      | w :: ws => (c :: w) :: ws

end SqlLayout.Text
