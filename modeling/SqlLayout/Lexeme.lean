import SqlLayout.Lexeme.Number
import SqlLayout.Lexeme.Phrase
import SqlLayout.Lexeme.Quote
import SqlLayout.Text.Lines

/-!
# Lexemes

`lexeme` says what stands at the head of a text: a kind, a number of characters, and the key of a
placeholder. The rules are tried in a fixed order, and a text that no rule claims begins with an
operator. Only strings and block comments can be refused, namely when they are not closed or when a
dialect lets a string begin with nothing.
-/

namespace SqlLayout

/-- What a rule finds at the head of a text. -/
structure Lexeme where
  kind : Kind
  size : Nat
  key : Option Text := none

inductive LexFault where
  /-- A block comment without its end. -/
  | unclosedComment
  /-- A string without its closing quote. -/
  | unclosedString (closer : Char)
  /-- A string that begins with nothing, so that no quote can close it. -/
  | emptyOpener
deriving DecidableEq

def LexFault.message : LexFault → Text
  | unclosedComment => "unterminated block comment".toList
  | unclosedString closer => "unterminated string (expected closing ".toList ++ [closer, ')']
  | emptyOpener => "string index out of range".toList

/-- What the tokens before a place mean for it. -/
structure Context where
  /-- The token directly before is a dot, so that a name follows and no keyword. -/
  afterDot : Bool
  /-- The last token that is not blank is an operand, so that a minus sign subtracts. -/
  afterOperand : Bool
deriving DecidableEq

namespace Context

def start : Context := ⟨false, false⟩

def next (ctx : Context) (kind : Kind) (text : Text) : Context where
  afterDot := text == ['.']
  afterOperand := if kind = .blank then ctx.afterOperand else kind.isOperand

end Context

namespace Lexeme

def bracket? (d : Dialect) : Text → Option Lexeme
  | [] => none
  | c :: _ =>
    if d.openers.contains [c] then some { kind := .opening, size := 1 }
    else if d.closers.contains [c] then some { kind := .closing, size := 1 }
    else none

/-- A name in quotes, behind the sign of a named placeholder. -/
def quotedName? : Text → Option Lexeme
  | [] => none
  | q :: rest =>
    if q = '\x27' ∨ q = '\x22' ∨ q = '\x60' then
      (Text.find? [q] rest).map fun n =>
        { kind := .placeholder, size := n + 3, key := some (rest.take n) }
    else none

/-- A bare name, behind the sign of a named placeholder. -/
def bareName? (t : Text) : Option Lexeme :=
  let name := t.takeWhile Text.isWordChar
  if name.isEmpty then none
  else some { kind := .placeholder, size := name.length + 1, key := some name }

/-- A placeholder: a counting sign with an optional number, or a naming sign with a name. -/
def placeholder? (d : Dialect) : Text → Option Lexeme
  | [] => none
  | c :: rest =>
    if d.indexMarks.contains [c] then
      let digits := rest.takeWhile Text.isDigit
      some
        { kind := .placeholder, size := digits.length + 1,
          key := if digits.isEmpty then none else some digits }
    else if d.nameMarks.contains [c] then quotedName? rest <|> bareName? rest
    else none

/-- A number; a minus sign belongs to it unless an operand stands before. -/
def number? (ctx : Context) (t : Text) : Option Lexeme :=
  if ctx.afterOperand && t.head? == some '-' then none
  else (numberSize? t).map fun n => { kind := .number, size := n }

/-- A keyword phrase, unless a dot stands directly before. -/
def keyword? (lx : Lexicon) (ctx : Context) (t : Text) : Option Lexeme :=
  if ctx.afterDot then none
  else lx.phrases.findSome? fun (role, ws) =>
    (phraseSize? ws t).map fun n => { kind := .keyword role, size := n }

/-- A word; some words are brackets, unless a dot stands directly before. -/
def word? (lx : Lexicon) (ctx : Context) (t : Text) : Option Lexeme :=
  let word := t.takeWhile Text.isWordChar
  if word.isEmpty then none
  else
    let capitals := Text.upper word
    let kind : Kind :=
      if !ctx.afterDot && lx.openWords.contains capitals then .opening
      else if !ctx.afterDot && lx.closeWords.contains capitals then .closing
      else .word
    some { kind, size := word.length }

/-- The operators of more than one character, longer ones first. -/
def longOperators : List Text :=
  ["!~~*", "->>", "~~*", "!~~", "!~*", "!=", "<>", "==", "<=", ">=", "!<", "!>", "||", "::", "->",
    "~~", "~*", "!~"].map String.toList

/-- An operator: a long one, or any single character. -/
def operator (t : Text) : Lexeme :=
  { kind := .operator, size := ((longOperators.find? t.startsWith).map List.length).getD 1 }

/-- What stands at the head of a text that begins with no blank, comment or string. -/
def plain (lx : Lexicon) (ctx : Context) (t : Text) : Lexeme :=
  (bracket? lx.dialect t <|> placeholder? lx.dialect t <|> number? ctx t <|> keyword? lx ctx t <|>
    word? lx ctx t).getD (operator t)

/-- A block comment, given the text behind its start. -/
def blockComment (rest : Text) : Except LexFault Lexeme :=
  match Text.find? ['*', '/'] rest with
  | some n => .ok { kind := .blockComment, size := n + 4 }
  | none => .error .unclosedComment

/-- A string, given its opener and the text behind it. -/
def string (opener rest : Text) : Except LexFault Lexeme :=
  if opener.isEmpty then .error .emptyOpener
  else
    let closer := closerOf opener
    match quoteSize? closer rest with
    | some n => .ok { kind := .quoted, size := opener.length + n }
    | none => .error (.unclosedString closer)

end Lexeme

/-- What stands at the head of a text that is not empty. -/
def lexeme (lx : Lexicon) (ctx : Context) (t : Text) : Except LexFault Lexeme :=
  if t.startsBlank then .ok { kind := .blank, size := (t.takeWhile Text.isBlank).length }
  else if lx.dialect.commentMarks.any t.startsWith then
    .ok { kind := .lineComment, size := t.lineLength }
  else if t.startsWith ['/', '*'] then Lexeme.blockComment (t.drop 2)
  else
    match lx.quotes.find? t.startsWith with
    | some opener => Lexeme.string opener (t.drop opener.length)
    | none => .ok (Lexeme.plain lx ctx t)

end SqlLayout
