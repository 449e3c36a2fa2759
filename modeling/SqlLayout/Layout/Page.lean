import SqlLayout.Text.Blank

/-!
# Pages

A page is the text laid out so far. It is kept in chunks, so that adding text at its end and
taking blanks away from there touch only the last chunks; no chunk is empty.
-/

namespace SqlLayout

/-- Text under construction; the last chunk comes first. -/
structure Page where
  chunks : List Text
deriving DecidableEq

namespace Page

def empty : Page := ⟨[]⟩

def append (p : Page) (t : Text) : Page :=
  if t.isEmpty then p else ⟨t :: p.chunks⟩

/-- Chunks without the blanks at the end of the text. -/
def trimChunks : List Text → List Text
  | [] => []
  | c :: cs =>
    let kept := Text.trimEnd c
    if kept.isEmpty then trimChunks cs else kept :: cs

def trimEnd (p : Page) : Page :=
  ⟨trimChunks p.chunks⟩

/-- The number of characters behind the last line feed, counted from the end of the text. -/
def openLength : List Text → Nat
  | [] => 0
  | c :: cs =>
    let tail := (c.reverse.takeWhile (· ≠ '\n')).length
    if c.contains '\n' then tail else tail + openLength cs

def lastLineLength (p : Page) : Nat :=
  openLength p.chunks

def text (p : Page) : Text :=
  p.chunks.reverse.flatten

end Page

end SqlLayout
