import SqlLayout.Text.Quoted

/-!
# Raw texts

An argument of a command line need not be text: a byte that belongs to no character comes as half of
a surrogate pair, and so can any other half. A raw text is a sequence of code points of either sort.
What works on texts works on a raw text whose halves are filled with characters.
-/

namespace SqlLayout

/-- A code point: a character, or half of a surrogate pair that stands alone. -/
inductive CodePoint where
  | char (c : Char)
  | half (n : Fin 2048)
deriving DecidableEq

/-- Text that may hold halves of surrogate pairs. -/
abbrev RawText := List CodePoint

/-- Characters in place of the halves. -/
abbrev Filling := Fin 2048 → Char

def Text.raw (t : Text) : RawText :=
  t.map .char

namespace CodePoint

def char? : CodePoint → Option Char
  | char c => some c
  | half _ => none

def isHalf : CodePoint → Bool
  | char _ => false
  | half _ => true

def fill (f : Filling) : CodePoint → Char
  | char c => c
  | half n => f n

/-- A code point by itself if it is a character, and by its number if it is not. -/
def escaped : CodePoint → Text
  | char c => [c]
  | half n => '\\' :: 'u' :: Text.hexDigits 4 (0xd800 + n.val)

/-- A code point as it stands inside the given quotes. -/
def quotedIn (quote : Char) : CodePoint → Text
  | char c => Text.escape quote c
  | half n => (half n).escaped

end CodePoint

namespace RawText

/-- The text that a raw text without halves is. -/
def text? : RawText → Option Text
  | [] => some []
  | c :: cs => c.char?.bind fun c => (text? cs).map (c :: ·)

def fill (f : Filling) (t : RawText) : Text :=
  t.map (CodePoint.fill f)

/-- A raw text as a log shows it. -/
def escaped (t : RawText) : Text :=
  t.flatMap CodePoint.escaped

def quoted (t : RawText) : Text :=
  let quote := Text.quoteFor t.escaped
  quote :: t.flatMap (CodePoint.quotedIn quote) ++ [quote]

/-- Fills halves with characters of the last plane but one. -/
def first : Filling :=
  fun n => Char.ofNat (0xf0000 + n.val)

/-- Fills halves with characters of the last plane. -/
def second : Filling :=
  fun n => Char.ofNat (0x100000 + n.val)

/-- The raw text with the given two fillings, `first` and `second`, which agree nowhere. -/
def ofFillings : Text → Text → RawText
  | c :: cs, d :: ds =>
    (if c = d then .char c else .half (Fin.ofNat 2048 (c.toNat - 0xf0000))) :: ofFillings cs ds
  | _, _ => []

end RawText

end SqlLayout
