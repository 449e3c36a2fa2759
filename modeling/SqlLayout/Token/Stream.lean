import SqlLayout.Lexeme

/-!
# Reading a query

`tokenize` cuts a text into tokens. Nothing is lost: the texts of the tokens, one after the other,
are the source, and each token knows where it stands.
-/

namespace SqlLayout

/-- A fault and the place where the string or comment begins. -/
structure LexError where
  fault : LexFault
  position : Position
deriving DecidableEq

/-- The tokens of a text that begins at a place in a context. -/
def tokensFrom (lx : Lexicon) (ctx : Context) (place : Position) (t : Text) :
    Except LexError (List Token) :=
  match t with
  | [] => .ok []
  | c :: cs =>
    match lexeme lx ctx (c :: cs) with
    | .error fault => .error ⟨fault, place⟩
    | .ok l =>
      let text := c :: cs.take (l.size - 1)
      let stop := place.advance text
      let token : Token := { kind := l.kind, text, key := l.key, span := some ⟨place, stop⟩ }
      match tokensFrom lx (ctx.next l.kind text) stop (cs.drop (l.size - 1)) with
      | .error e => .error e
      | .ok ts => .ok (token :: ts)
termination_by t.length
decreasing_by simp only [List.length_drop, List.length_cons]; omega

def tokenize (d : Dialect) (source : Text) : Except LexError (List Token) :=
  tokensFrom d.lexicon .start .start source

end SqlLayout
