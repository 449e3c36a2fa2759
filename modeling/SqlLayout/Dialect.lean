import SqlLayout.Text.Blank
import SqlLayout.Text.Case
import SqlLayout.Text.Letter
import SqlLayout.Token

/-!
# Dialects

A dialect is a vocabulary: the phrases that are keywords, and the signs that open and close
brackets, strings, placeholders and comments. A `Lexicon` holds the same vocabulary in the order
in which it is tried at a place of the source: longer phrases and longer quotes come first.
-/

namespace SqlLayout

/-- The vocabulary of one flavour of SQL. -/
structure Dialect where
  name : Text
  /-- Phrases that open a clause. -/
  clauses : List Text
  /-- Phrases that start a line. -/
  breaking : List Text
  /-- Phrases that start a line and indent what follows. -/
  indented : List Text
  /-- Other keywords. -/
  plain : List Text
  /-- The line-starting phrases that end the indentation of an indented one. -/
  joins : List Text
  /-- Opening brackets: single characters, or words. -/
  openers : List Text := ["(".toList, "CASE".toList]
  /-- Closing brackets: single characters, or words. -/
  closers : List Text := [")".toList, "END".toList]
  /-- What a string can begin with. -/
  quotes : List Text := ["\"".toList, "'".toList, "`".toList, "[".toList, "N'".toList]
  /-- Signs of placeholders that are counted or numbered. -/
  indexMarks : List Text := ["?".toList]
  /-- Signs of placeholders that are named. -/
  nameMarks : List Text := ["@".toList, ":".toList]
  /-- What a line comment can begin with. -/
  commentMarks : List Text := ["--".toList, "#".toList]
  /-- Other names of the dialect. -/
  aliases : List Text := []

namespace Dialect

def texts (ws : List String) : List Text :=
  ws.map String.toList

def phrases (d : Dialect) : Role → List Text
  | .clause => d.clauses
  | .indented => d.indented
  | .breaking => d.breaking
  | .plain => d.plain

end Dialect

/-- Puts a text in front of the first one that is not longer. -/
def insertByLength (t : Text) : List Text → List Text
  | [] => [t]
  | u :: us => if u.length ≤ t.length then t :: u :: us else u :: insertByLength t us

/-- Texts in the order of falling length; texts of one length keep their order. -/
def byLength (ts : List Text) : List Text :=
  ts.foldr insertByLength []

/-- A vocabulary prepared for reading. -/
structure Lexicon where
  dialect : Dialect
  /-- The keyword phrases as word sequences, in the order in which they are tried. -/
  phrases : List (Role × List Text)
  /-- The string openers in the order in which they are tried. -/
  quotes : List Text
  /-- The words that open a bracket, in capitals. -/
  openWords : List Text
  /-- The words that close a bracket, in capitals. -/
  closeWords : List Text

namespace Dialect

/-- The brackets that are words, in capitals. -/
def bracketWords (brackets : List Text) : List Text :=
  (brackets.filter fun b => !b.isEmpty && b.all Text.isLetter).map Text.upper

/-- The phrases of one role in the order in which they are tried, cut into words. -/
def orderedPhrases (d : Dialect) (role : Role) : List (Role × List Text) :=
  (byLength (d.phrases role)).map fun p => (role, p.words)

def lexicon (d : Dialect) : Lexicon where
  dialect := d
  phrases := [Role.clause, .indented, .breaking, .plain].flatMap d.orderedPhrases
  quotes := byLength d.quotes
  openWords := bracketWords d.openers
  closeWords := bracketWords d.closers

end Dialect

end SqlLayout
