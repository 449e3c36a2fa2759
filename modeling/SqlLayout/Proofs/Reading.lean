import SqlLayout.Proofs.LexemeSize

/-!
# Reading as a relation

`Reads` says what it means that a text reads as a token sequence: each token is what stands at the
head of the text that is left, in the context that the tokens before it leave behind. For a
substantial dialect this is what `tokensFrom` computes, so that proofs about a reading go by
induction on the tokens and never unfold the function.
-/

namespace SqlLayout

/-- The token that a lexeme becomes at a place. -/
def Lexeme.token (l : Lexeme) (p : Position) (text : Text) : Token where
  kind := l.kind
  text := text
  key := l.key
  span := some ⟨p, p.advance text⟩

/-- A text that begins at a place in a context reads as a token sequence. -/
inductive Reads (lx : Lexicon) : Context → Position → Text → List Token → Prop
  | nil (ctx : Context) (p : Position) : Reads lx ctx p [] []
  | cons {ctx : Context} {p : Position} {text rest : Text} {l : Lexeme} {ts : List Token} :
      lexeme lx ctx (text ++ rest) = .ok l → l.size = text.length → text ≠ [] →
      Reads lx (ctx.next l.kind text) (p.advance text) rest ts →
      Reads lx ctx p (text ++ rest) (l.token p text :: ts)

lemma Reads.texts {lx : Lexicon} {ctx : Context} {p : Position} {t : Text} {ts : List Token}
    (h : Reads lx ctx p t ts) : (ts.map Token.text).flatten = t := by
  induction h with
  | nil => rfl
  | cons _ _ _ _ ih => simp [Lexeme.token, ih]

/-- A text that begins at a place in a context is refused. -/
inductive Refused (lx : Lexicon) : Context → Position → Text → LexError → Prop
  | here {ctx : Context} {p : Position} {t : Text} {fault : LexFault} :
      t ≠ [] → lexeme lx ctx t = .error fault → Refused lx ctx p t ⟨fault, p⟩
  | later {ctx : Context} {p : Position} {text rest : Text} {l : Lexeme} {e : LexError} :
      lexeme lx ctx (text ++ rest) = .ok l → l.size = text.length → text ≠ [] →
      Refused lx (ctx.next l.kind text) (p.advance text) rest e →
      Refused lx ctx p (text ++ rest) e

lemma tokensFrom_step {lx : Lexicon} {ctx : Context} {p : Position} {text rest : Text} {l : Lexeme}
    (hl : lexeme lx ctx (text ++ rest) = .ok l) (hs : l.size = text.length) (ht : text ≠ []) :
    tokensFrom lx ctx p (text ++ rest) =
      match tokensFrom lx (ctx.next l.kind text) (p.advance text) rest with
      | .error e => .error e
      | .ok ts => .ok (l.token p text :: ts) := by
  obtain ⟨c, cs, rfl⟩ := List.exists_cons_of_ne_nil ht
  rw [List.cons_append] at hl ⊢
  have hsize : l.size - 1 = cs.length := by simp [hs]
  rw [tokensFrom.eq_def]
  simp only [hl, hsize, List.take_left', List.drop_left']
  rfl

lemma lexeme_cases {d : Dialect} (hd : d.Substantial) (ctx : Context) {t : Text} (ht : t ≠ []) :
    (∃ fault, lexeme d.lexicon ctx t = .error fault) ∨
    ∃ l text rest, t = text ++ rest ∧ lexeme d.lexicon ctx t = .ok l ∧ l.size = text.length ∧
      text ≠ [] := by
  have hb := lexeme_size_bounds hd ctx ht
  cases hl : lexeme d.lexicon ctx t with
  | error fault => exact .inl ⟨fault, rfl⟩
  | ok l =>
    rw [hl] at hb
    have hlen : (t.take l.size).length = l.size := List.length_take_of_le hb.2
    exact .inr ⟨l, t.take l.size, t.drop l.size, (List.take_append_drop _ _).symm, rfl, hlen.symm,
      List.length_pos_iff.mp (hlen.symm ▸ hb.1)⟩

lemma tokensFrom_of_reads {lx : Lexicon} {ctx : Context} {p : Position} {t : Text} {ts : List Token}
    (h : Reads lx ctx p t ts) : tokensFrom lx ctx p t = .ok ts := by
  induction h with
  | nil => rw [tokensFrom.eq_def]
  | cons hl hs ht _ ih => rw [tokensFrom_step hl hs ht, ih]

lemma tokensFrom_of_refused {lx : Lexicon} {ctx : Context} {p : Position} {t : Text} {e : LexError}
    (h : Refused lx ctx p t e) : tokensFrom lx ctx p t = .error e := by
  induction h with
  | @here ctx p t fault ht hl =>
    obtain ⟨c, cs, rfl⟩ := List.exists_cons_of_ne_nil ht
    rw [tokensFrom.eq_def]
    simp only [hl]
  | later hl hs ht _ ih => rw [tokensFrom_step hl hs ht, ih]

/-- A substantial dialect reads or refuses every text. -/
lemma reads_or_refused {d : Dialect} (hd : d.Substantial) (ctx : Context) (p : Position) (t : Text) :
    (∃ ts, Reads d.lexicon ctx p t ts) ∨ ∃ e, Refused d.lexicon ctx p t e := by
  induction hn : t.length using Nat.strongRecOn generalizing t ctx p with
  | _ n ih =>
    by_cases ht : t = []
    · exact .inl ⟨[], ht ▸ .nil ctx p⟩
    · rcases lexeme_cases hd ctx ht with ⟨fault, hf⟩ | ⟨l, text, rest, rfl, hl, hs, hne⟩
      · exact .inr ⟨_, .here ht hf⟩
      · have hlt : rest.length < n := by
          have := List.length_pos_iff.mpr hne
          simp only [List.length_append] at hn
          omega
        rcases ih _ hlt (ctx.next l.kind text) (p.advance text) rest rfl with ⟨ts, hr⟩ | ⟨e, he⟩
        · exact .inl ⟨_, .cons hl hs hne hr⟩
        · exact .inr ⟨e, .later hl hs hne he⟩

lemma tokensFrom_eq_ok_iff {d : Dialect} (hd : d.Substantial) {ctx : Context} {p : Position}
    {t : Text} {ts : List Token} :
    tokensFrom d.lexicon ctx p t = .ok ts ↔ Reads d.lexicon ctx p t ts := by
  refine ⟨fun h => ?_, tokensFrom_of_reads⟩
  rcases reads_or_refused hd ctx p t with ⟨us, hu⟩ | ⟨e, he⟩
  · rw [tokensFrom_of_reads hu, Except.ok.injEq] at h
    exact h ▸ hu
  · simp [tokensFrom_of_refused he] at h

lemma tokensFrom_eq_error_iff {d : Dialect} (hd : d.Substantial) {ctx : Context} {p : Position}
    {t : Text} {e : LexError} :
    tokensFrom d.lexicon ctx p t = .error e ↔ Refused d.lexicon ctx p t e := by
  refine ⟨fun h => ?_, tokensFrom_of_refused⟩
  rcases reads_or_refused hd ctx p t with ⟨us, hu⟩ | ⟨f, hf⟩
  · simp [tokensFrom_of_reads hu] at h
  · rw [tokensFrom_of_refused hf, Except.error.injEq] at h
    exact h ▸ hf

end SqlLayout
