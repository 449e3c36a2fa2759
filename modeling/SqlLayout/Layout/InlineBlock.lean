import SqlLayout.Text.Blank
import SqlLayout.Token

/-!
# Inline blocks

A pair of brackets stays on one line if everything between them is short and simple enough.
`judge` looks ahead from an opening bracket to decide; brackets nested in an inline block belong
to it and are counted, so that it ends at the bracket that closes it.
-/

namespace SqlLayout.InlineBlock

/-- The number of characters that an inline block may have. -/
def defaultLimit : Nat := 50

/-- What looking ahead from an opening bracket finds. -/
inductive Verdict where
  /-- The closing bracket is near and nothing in between breaks the line. -/
  | fits
  /-- The block is too long, or something in it breaks the line. -/
  | refused
  /-- There is no closing bracket. -/
  | unclosed
deriving DecidableEq

/-- Whether a line has a space between two neighbouring tokens. -/
def spaced (previous t : Token) : Bool :=
  previous.kind ≠ .opening && !previous.isText "." && t.kind ≠ .closing &&
    !(t.isText "," || t.isText "." || t.isText ":" || t.isText ";")

/-- Whether a token cannot stand in an inline block. -/
def breaksLine (t : Token) : Bool :=
  match t.kind with
  | .keyword .clause | .keyword .breaking | .keyword .indented | .lineComment | .blockComment => true
  | _ => t.isText ";"

def depthAfter (depth : Int) (t : Token) : Int :=
  match t.kind with
  | .opening => depth + 1
  | .closing => depth - 1
  | _ => depth

/-- The characters that a token adds to a line behind another token. -/
def width (previous : Option Token) (t : Token) : Nat :=
  (if previous.any (spaced · t) then 1 else 0) + (Text.collapse t.text).length

/-- Looks ahead through the tokens behind `previous`, with `length` characters on the line and
`depth` brackets open so far. -/
def judgeFrom (limit : Int) (previous : Option Token) (length : Nat) (depth : Int) :
    List Token → Verdict
  | [] => .unclosed
  | t :: ts =>
    if t.kind = .blank then judgeFrom limit previous length depth ts
    else
      let length' := length + width previous t
      let depth' := depthAfter depth t
      if limit < length' then .refused
      else if t.kind = .closing ∧ depth' = 0 then .fits
      else if breaksLine t then .refused
      else judgeFrom limit (some t) length' depth' ts

def judge (limit : Int) (ts : List Token) : Verdict :=
  judgeFrom limit none 0 0 ts

/-- The nesting depth of inline mode behind an opening bracket, the first of the given tokens. -/
def enter (limit : Int) (depth : Nat) (ts : List Token) : Nat :=
  if 0 < depth then depth + 1 else if judge limit ts = .fits then 1 else 0

/-- The nesting depth of inline mode behind a closing bracket. -/
def leave (depth : Nat) : Nat :=
  depth - 1

end SqlLayout.InlineBlock
