import SqlLayout.Layout.Comment
import SqlLayout.Layout.Levels
import SqlLayout.Layout.Options
import SqlLayout.Layout.Page

/-!
# Drafts

A draft is a layout in progress: the page so far and what the tokens before mean for the next one.
This file has the small steps that the rule for each kind of token is made of.
-/

namespace SqlLayout

/-- A remark on a decision that the layout took. -/
inductive Note where
  /-- The brackets opened by a token stay on one line. -/
  | inlineBlock (index : Nat)
  /-- The bracket opened by a token is never closed. -/
  | unclosedBracket (index : Nat)
  /-- A line was wrapped in front of a text. -/
  | wrapped (limit : Nat) (before : Text)
deriving DecidableEq

structure Draft where
  page : Page := .empty
  levels : Levels := {}
  /-- The nesting depth of the inline block, 0 outside of one. -/
  inlineDepth : Nat := 0
  /-- Commas held back for the start of the next line. -/
  held : Text := []
  /-- The last keyword is the one in whose clause commas do not break the line. -/
  inLimit : Bool := false
  /-- The kind of the token before. -/
  previous : Option Kind := none
  /-- Nothing but a statement separator and blank lines stand at the end of the page. -/
  separated : Bool := false
  /-- The number of values used by unnumbered placeholders. -/
  used : Nat := 0
  /-- The remarks so far, the latest first. -/
  notes : List Note := []
deriving DecidableEq

namespace Draft

def note (s : Draft) (n : Note) : Draft :=
  { s with notes := n :: s.notes }

def relevel (s : Draft) (f : Levels → Levels) : Draft :=
  { s with levels := f s.levels }

def dropOverflow (s : Draft) : Draft :=
  s.relevel Levels.dropOverflow

def indent (s : Draft) (level : Level) : Draft :=
  s.relevel (·.increase level)

def outdent (s : Draft) (level : Level) : Draft :=
  s.relevel (·.decrease level)

def trimEnd (s : Draft) : Draft :=
  { s with page := s.page.trimEnd }

def write (s : Draft) (t : Text) : Draft :=
  { s with page := s.page.append t, separated := false }

/-- Starts a new line at the current indentation; behind a statement separator a line stays
blank. -/
def newLine (s : Draft) (unit : Text) : Draft :=
  let ends := if s.separated then ['\n', '\n'] else ['\n']
  { s with page := (s.page.trimEnd.append ends).append (s.levels.indentation unit) }

def writeSpaced (s : Draft) (t : Text) : Draft :=
  s.write (t ++ [' '])

/-- Writes text directly behind the text before, and a space. -/
def writeAttached (s : Draft) (t : Text) : Draft :=
  s.trimEnd.writeSpaced t

/-- Writes text directly behind the text before. -/
def writeTight (s : Draft) (t : Text) : Draft :=
  s.trimEnd.write t

/-- Wraps the line if a text would make it too long. -/
def wrapBefore (o : Options) (s : Draft) (t : Text) : Draft :=
  if o.maxLineLength ≠ 0 ∧ o.maxLineLength < s.page.lastLineLength + t.length then
    ((s.note (.wrapped o.maxLineLength t)).indent .overflow).newLine o.unit
  else s

/-- Writes text and a space on this line, or on a new one if this one gets too long. -/
def writeWrapped (o : Options) (s : Draft) (t : Text) : Draft :=
  (s.wrapBefore o t).writeSpaced t

end Draft

end SqlLayout
