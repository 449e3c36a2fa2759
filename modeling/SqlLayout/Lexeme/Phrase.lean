import SqlLayout.Dialect
import SqlLayout.Text.WordChar

/-!
# Keyword phrases

A phrase is a sequence of words. It stands at the head of a text if its words stand there in
order, in any letter case, with blanks between them and a word boundary at the end.
-/

namespace SqlLayout

/-- Whether two characters are the same letter without regard to case. -/
def sameLetter (a b : Char) : Bool :=
  Text.fold a == Text.fold b

def startsWithWord : (word : Text) → Text → Bool
  | [], _ => true
  | _ :: _, [] => false
  | w :: ws, c :: cs => sameLetter w c && startsWithWord ws cs

/-- The number of characters that the words of a phrase take at the head of a text, blanks
between them included. -/
def wordsSize? : (phrase : List Text) → Text → Option Nat
  | [], _ => none
  | [w], t => if startsWithWord w t then some w.length else none
  | w :: ws, t =>
    if startsWithWord w t then
      let rest := t.drop w.length
      let gap := (rest.takeWhile Text.isBlank).length
      if gap = 0 then none else (wordsSize? ws (rest.drop gap)).map (w.length + gap + ·)
    else none

def phraseSize? (phrase : List Text) (t : Text) : Option Nat :=
  (wordsSize? phrase t).filter t.boundaryAt

end SqlLayout
