import SqlLayout.Token
import SqlLayout.Text.Quoted

/-!
# Token listings

One line for each token that is not blank: where it starts, its kind, its text in quotes, and the
key of a placeholder that has one.
-/

namespace SqlLayout

namespace Token

/-- The line and column at which a token starts, or question marks. -/
def place (t : Token) : Text :=
  match t.span with
  | some s => Text.ofNat s.start.line ++ ':' :: Text.ofNat s.start.column
  | none => "?:?".toList

def listed (t : Token) : Text :=
  t.place.padLeft 8 ++ "  ".toList ++ Text.padRight 28 t.kind.label.toList ++ " ".toList ++
    t.text.quoted ++
    (match t.key with
      | some key => "  key=".toList ++ key.quoted
      | none => []) ++ ['\n']

def listing (ts : List Token) : Text :=
  (ts.filter fun t => t.kind ≠ .blank).flatMap listed

end Token

end SqlLayout
