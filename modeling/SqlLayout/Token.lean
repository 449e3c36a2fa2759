import SqlLayout.Position

/-!
# Tokens

A query is a sequence of tokens, each with its exact text. Keywords differ in what they do to the
layout; a token list from elsewhere may also hold tokens of a kind that the layout does not know.
-/

namespace SqlLayout

/-- What a keyword does to the layout. -/
inductive Role where
  /-- Opens a clause and stands alone on its line. -/
  | clause
  /-- Starts a line and indents what follows. -/
  | indented
  /-- Starts a line. -/
  | breaking
  /-- Stands like any other word. -/
  | plain
deriving DecidableEq

inductive Kind where
  | blank
  | word
  | quoted
  | number
  | operator
  | keyword (role : Role)
  | opening
  | closing
  | placeholder
  | lineComment
  | blockComment
  /-- A kind that the layout has no rule for, under the name it came with. -/
  | unclassified (name : String)
deriving DecidableEq

namespace Kind

/-- The kinds of tokens that a query can hold. -/
def known : List Kind :=
  [.blank, .word, .quoted, .number, .operator, .keyword .clause, .keyword .indented,
    .keyword .breaking, .keyword .plain, .opening, .closing, .placeholder, .lineComment,
    .blockComment]

def label : Kind → String
  | blank => "WHITESPACE"
  | word => "WORD"
  | quoted => "STRING"
  | number => "NUMBER"
  | operator => "OPERATOR"
  | keyword .clause => "RESERVED_TOPLEVEL"
  | keyword .indented => "RESERVED_NEWLINE_WITH_INDENT"
  | keyword .breaking => "RESERVED_NEWLINE"
  | keyword .plain => "RESERVED"
  | opening => "OPEN_PAREN"
  | closing => "CLOSE_PAREN"
  | placeholder => "PLACEHOLDER"
  | lineComment => "LINE_COMMENT"
  | blockComment => "BLOCK_COMMENT"
  | unclassified name => name

/-- The kind listed under a name; an unknown name gives an unclassified kind. -/
def ofLabel (name : String) : Kind :=
  (known.find? fun k => k.label == name).getD (.unclassified name)

def isComment (k : Kind) : Bool :=
  k = .lineComment || k = .blockComment

/-- Whether a token of this kind is an operand, so that a minus sign behind it subtracts. -/
def isOperand : Kind → Bool
  | word | quoted | number | closing | placeholder => true
  | _ => false

end Kind

/-- A piece of a query. The key is the name or number of a placeholder that has one; the span is
known for tokens that were read from a text. -/
structure Token where
  kind : Kind
  text : Text
  key : Option Text := none
  span : Option Span := none
deriving DecidableEq

def Token.isText (t : Token) (text : String) : Bool :=
  t.text == text.toList

end SqlLayout
