import SqlLayout.Layout
import SqlLayout.Token.Stream

/-!
# Error reports

A report names a place of the source, shows the line, and underlines the fault. A report on a token
that has no place, or without the source at hand, is a single line.
-/

namespace SqlLayout

structure SourceReport where
  message : Text
  position : Position
  /-- The number of characters at fault. -/
  width : Nat

namespace SourceReport

/-- The source line with a given number as it is shown, empty where there is none. -/
def shownLine (source : Text) (line : Nat) : Text :=
  if line = 0 then []
  else
    Text.dropEndWhile (· == '\r')
      (Text.dropEndWhile (· == '\n') (((Text.shownLines source)[line - 1]?).getD []))

/-- The number of carets: the width, but within the line, and at least one. -/
def caretCount (r : SourceReport) (line : Text) : Nat :=
  max 1 (min r.width (line.length + 1 - r.position.column))

def text (r : SourceReport) (source filename : Text) : Text :=
  let line := shownLine source r.position.line
  let number := Text.ofNat r.position.line
  let gutter := List.replicate (number.length + 1) ' '
  "error: ".toList ++ r.message ++ ['\n'] ++
    gutter ++ "--> ".toList ++ filename ++ [':'] ++ number ++ [':'] ++
      Text.ofNat r.position.column ++ ['\n'] ++
    gutter ++ ['|', '\n'] ++
    number ++ [' ', '|', ' '] ++ line ++ ['\n'] ++
    gutter ++ ['|', ' '] ++ List.replicate (r.position.column - 1) ' ' ++
      List.replicate (r.caretCount line) '^'

/-- The report on a text that cannot be read: two characters at the place of the fault. -/
def ofReading (message : Text) (position : Position) : SourceReport :=
  ⟨message, position, 2⟩

end SourceReport

/-- The name that a source has in reports unless it has one of its own. -/
def defaultFilename : Text :=
  "input.sql".toList

def LexError.report (e : LexError) : SourceReport :=
  .ofReading e.fault.message e.position

structure TokenReport where
  message : Text
  token : Token
  index : Nat

namespace TokenReport

def summary (r : TokenReport) : Text :=
  r.message ++ " (token ".toList ++ Text.ofNat r.index ++ ": ".toList ++ r.token.text.quoted ++ [')']

/-- The report as text, with the source line where source and place are known. -/
def text (r : TokenReport) (source : Option Text) (filename : Text) : Text :=
  match source, r.token.span with
  | some source, some span =>
    let width := max 1 (Text.lines r.token.text).1.length
    SourceReport.text ⟨r.message, span.start, width⟩ source filename
  | _, _ => "error: ".toList ++ r.summary

end TokenReport

end SqlLayout
