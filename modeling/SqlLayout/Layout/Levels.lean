import SqlLayout.Text.Basic

/-!
# Indentation levels

A line is indented for four independent reasons, each counted on its own: an open clause, open
brackets, a continuation behind an indented keyword, and overflow of a line that was too long.
-/

namespace SqlLayout

/-- A reason to indent. -/
inductive Level where
  | clause
  | block
  | continuation
  | overflow
deriving DecidableEq

/-- How often each reason applies. -/
structure Levels where
  clause : Nat := 0
  block : Nat := 0
  continuation : Nat := 0
  overflow : Nat := 0
deriving DecidableEq

namespace Levels

def update (ls : Levels) (level : Level) (f : Nat → Nat) : Levels :=
  match level with
  | .clause => { ls with clause := f ls.clause }
  | .block => { ls with block := f ls.block }
  | .continuation => { ls with continuation := f ls.continuation }
  | .overflow => { ls with overflow := f ls.overflow }

def increase (ls : Levels) (level : Level) : Levels :=
  ls.update level (· + 1)

/-- One level less, where there is one. -/
def decrease (ls : Levels) (level : Level) : Levels :=
  ls.update level (· - 1)

def dropOverflow (ls : Levels) : Levels :=
  { ls with overflow := 0 }

/-- The number of units by which a line is indented. -/
def total (ls : Levels) : Nat :=
  ls.clause + ls.block + ls.continuation + ls.overflow

def indentation (ls : Levels) (unit : Text) : Text :=
  (List.replicate ls.total unit).flatten

end Levels

end SqlLayout
