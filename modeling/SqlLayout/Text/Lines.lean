import SqlLayout.Text.Blank

/-!
# Lines

Two notions of a line. Layout and positions know only the line feed (`lines`); a reader of an
error message sees a text broken at every character that ends a line on paper (`shownLines`).
-/

namespace SqlLayout.Text

/-- The piece of a list in front of the first separator and the pieces behind it. -/
def split {α : Type} [DecidableEq α] (separator : α) : List α → List α × List (List α)
  | [] => ([], [])
  | c :: cs =>
    let (first, later) := split separator cs
    if c = separator then ([], first :: later) else (c :: first, later)

/-- The first line of a text and the lines after it, as the line feeds divide them. -/
def lines (t : Text) : Text × List Text :=
  split '\n' t

def joinLines (first : Text) (later : List Text) : Text :=
  first ++ later.flatMap ('\n' :: ·)

/-- The characters that end a line on paper. -/
def isLineBreak (c : Char) : Bool :=
  let n := c.toNat
  (10 ≤ n && n ≤ 13) || (28 ≤ n && n ≤ 30) || n == 0x85 || n == 0x2028 || n == 0x2029

/-- The lines of a text as they show on paper, each with its line break; a carriage return and a
line feed are one break. -/
def shownLines : Text → List Text
  | [] => []
  | '\r' :: '\n' :: cs => ['\r', '\n'] :: shownLines cs
  | c :: cs =>
    if isLineBreak c then [c] :: shownLines cs
    else
      match shownLines cs with
      | [] => [[c]]
      | l :: ls => (c :: l) :: ls

/-- The number of characters up to and including the first line feed, carriage return or pair of
the two; the whole length where there is none. -/
def lineLength : Text → Nat
  | [] => 0
  | '\n' :: _ => 1
  | '\r' :: '\n' :: _ => 2
  | '\r' :: _ => 1
  | _ :: cs => lineLength cs + 1

end SqlLayout.Text
