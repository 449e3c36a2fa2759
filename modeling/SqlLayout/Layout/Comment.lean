import SqlLayout.Text.Lines

/-!
# Comments

A line comment is written as a block comment, so that the line can go on behind it. A block
comment keeps its lines; those behind the first are moved together to the current indentation.
-/

namespace SqlLayout.Comment

/-- Divides every `*/` by a space, so that it does not end a comment. -/
def spaceClosers : Text → Text
  | [] => []
  | '*' :: '/' :: cs => '*' :: ' ' :: '/' :: spaceClosers cs
  | c :: cs => c :: spaceClosers cs

/-- A text without the first of the given marks that it begins with. -/
def dropMark (marks : List Text) (t : Text) : Text :=
  match marks.find? t.startsWith with
  | some mark => t.drop mark.length
  | none => t

/-- The block comment that says the same as a line comment. -/
def ofLine (marks : List Text) (t : Text) : Text :=
  let body := dropMark marks (Text.dropEndWhile (fun c => c == '\r' || c == '\n') t)
  ['/', '*'] ++ spaceClosers body ++ [' ', '*', '/']

/-- Whether a text is a block comment with its start and its end. -/
def isClosed (t : Text) : Bool :=
  4 ≤ t.length && ['/', '*'].isPrefixOf t && ['*', '/'].isSuffixOf t

def isMargin (c : Char) : Bool :=
  c == ' ' || c == '\t'

/-- The longest text that two texts both begin with. -/
def commonStart : Text → Text → Text
  | a :: as, b :: bs => if a = b then a :: commonStart as bs else []
  | _, _ => []

/-- The margin that all lines with content share. -/
def margin (ls : List Text) : Text :=
  match (ls.filter fun l => !l.all isMargin).map (·.takeWhile isMargin) with
  | [] => []
  | m :: ms => ms.foldl commonStart m

/-- Lines without their common margin; a line of spaces and tabs becomes empty. -/
def dedent (ls : List Text) : List Text :=
  let size := (margin ls).length
  ls.map fun l => if l.all isMargin then [] else l.drop size

/-- A comment whose lines behind the first stand at the given indentation. -/
def reindent (indentation : Text) (t : Text) : Text :=
  let (first, later) := Text.lines t
  Text.joinLines (Text.trimEnd first) ((dedent later).map fun l => Text.trimEnd (indentation ++ l))

end SqlLayout.Comment
