import SqlLayout.Text.Lines
import SqlLayout.Text.Raw

/-!
# Paths

A path is shown without empty and single-dot components; double dots stay.
-/

namespace SqlLayout

/-- A path of a file: where it starts, and its components. -/
structure Path where
  /-- Slashes for an absolute path, nothing for a relative one. -/
  root : RawText
  parts : List RawText
deriving DecidableEq

namespace Path

/-- The components that slashes divide a list into, without empty and single-dot ones. -/
def components {α : Type} [DecidableEq α] (slash dot : α) (l : List α) : List (List α) :=
  let (first, later) := Text.split slash l
  (first :: later).filter fun part => !part.isEmpty && part ≠ [dot]

/-- Reads a path. Two leading slashes are kept as they are; any other number is one. -/
def ofRaw (t : RawText) : Path :=
  let slashes := (t.takeWhile (· == .char '/')).length
  { root :=
      Text.raw (if slashes = 0 then [] else if slashes = 2 then ['/', '/'] else ['/'])
    parts := components (.char '/') (.char '.') t }

def text (p : Path) : RawText :=
  if p.root.isEmpty && p.parts.isEmpty then Text.raw ['.']
  else p.root ++ List.intercalate (Text.raw ['/']) p.parts

def parent (p : Path) : Path :=
  { p with parts := p.parts.dropLast }

def child (p : Path) (name : RawText) : Path :=
  { p with parts := p.parts ++ [name] }

end Path

end SqlLayout
