import SqlLayout.Text.Basic

/-!
# Positions and spans

Lines and columns count from 1, offsets from 0. Only a line feed starts a new line.
-/

namespace SqlLayout

/-- A place between two characters of a text. -/
structure Position where
  line : Nat
  column : Nat
  offset : Nat
deriving DecidableEq

namespace Position

def start : Position := ⟨1, 1, 0⟩

def next (p : Position) (c : Char) : Position :=
  if c = '\n' then ⟨p.line + 1, 1, p.offset + 1⟩ else ⟨p.line, p.column + 1, p.offset + 1⟩

def advance (p : Position) (t : Text) : Position :=
  t.foldl next p

end Position

structure Span where
  start : Position
  stop : Position
deriving DecidableEq

end SqlLayout
