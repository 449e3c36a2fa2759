import Mathlib.Data.List.Chain
import SqlLayout.Proofs.LastLine
import SqlLayout.Proofs.Reading
import SqlLayout.Proofs.Vocabulary

/-!
# Tokens tile their source

The tokens of a text stand side by side and leave nothing out. `Tiling` says so of the whole text,
with lines and columns counted anew in the source.
-/

namespace SqlLayout

/-- The place behind the first `n` characters of a text, found by looking back over them: one line
more for each line feed, and one column more for each character behind the last line feed. -/
def placeAt (source : Text) (n : Nat) : Position where
  line := 1 + (source.take n).count '\n'
  column := 1 + ((source.take n).reverse.takeWhile (· ≠ '\n')).length
  offset := n

lemma placeAt_append (a b : Text) : placeAt (a ++ b) a.length = placeAt a a.length := by
  simp [placeAt]

lemma Position.advance_append (p : Position) (a b : Text) :
    p.advance (a ++ b) = (p.advance a).advance b :=
  List.foldl_append

lemma Position.advance_start (t : Text) : Position.start.advance t = placeAt t t.length := by
  rw [Position.advance_start_eq, placeAt, List.take_length, Text.length_takeWhile_reverse]

lemma Position.advance_start_append (a b : Text) :
    Position.start.advance a = placeAt (a ++ b) a.length := by
  rw [placeAt_append, Position.advance_start]

/-- Tokens that stand side by side in a source and leave nothing of it out. -/
structure Tiling (source : Text) (ts : List Token) : Prop where
  /-- No token is empty. -/
  nonempty : ∀ t ∈ ts, t.text ≠ []
  /-- The texts in order are the source. -/
  texts : (ts.map Token.text).flatten = source
  /-- Each span lies where its offsets say, and the token is the source between its ends. -/
  spans : ∀ t ∈ ts, ∃ a b, t.span = some ⟨placeAt source a, placeAt source b⟩ ∧
    t.text = (source.drop a).take (b - a)
  /-- The first token begins at the start. -/
  first : ∀ t ∈ ts.head?, t.span.map Span.start = some Position.start
  /-- Each token begins where the one before ends. -/
  chain : ts.IsChain fun t u => t.span.map Span.stop = u.span.map Span.start
  /-- The last token ends at the end. -/
  last : ∀ t ∈ ts.getLast?, t.span.map (·.stop.offset) = some source.length

section

variable {lx : Lexicon} {ctx : Context} {p : Position} {t : Text} {ts : List Token}

lemma Reads.nonempty (h : Reads lx ctx p t ts) : ∀ u ∈ ts, u.text ≠ [] := by
  induction h with
  | nil => simp
  | cons _ _ hne _ ih =>
    intro u hu
    rcases List.mem_cons.mp hu with rfl | hm
    · exact hne
    · exact ih u hm

lemma Reads.head?_span (h : Reads lx ctx p t ts) :
    ∀ u ∈ ts.head?, u.span.map Span.start = some p := by
  cases h with
  | nil => simp
  | cons => simp [Lexeme.token]

lemma Reads.chain (h : Reads lx ctx p t ts) :
    ts.IsChain fun u v => u.span.map Span.stop = v.span.map Span.start := by
  induction h with
  | nil => simp
  | cons _ _ _ hr ih =>
    rw [List.isChain_cons]
    exact ⟨fun v hv => (hr.head?_span v hv).symm, ih⟩

lemma Reads.getLast?_span (h : Reads lx ctx p t ts) :
    ∀ u ∈ ts.getLast?, u.span.map Span.stop = some (p.advance t) := by
  induction h with
  | nil => simp
  | @cons ctx p text rest l ts _ _ _ hr ih =>
    rw [Position.advance_append]
    cases ts with
    | nil =>
      cases hr
      simp [Lexeme.token, Position.advance]
    | cons v vs => simpa using ih

lemma Reads.lexemes (h : Reads lx ctx p t ts) : ∀ u ∈ ts, ∃ before after ctx' l,
    t = before ++ (u.text ++ after) ∧ lexeme lx ctx' (u.text ++ after) = .ok l ∧
    l.size = u.text.length ∧ u = l.token (p.advance before) u.text := by
  induction h with
  | nil => simp
  | @cons ctx p text rest l ts hl hs _ _ ih =>
    intro u hu
    rcases List.mem_cons.mp hu with rfl | hm
    · exact ⟨[], rest, ctx, l, rfl, hl, hs, rfl⟩
    · obtain ⟨before, after, ctx', l', rfl, hl', hs', hu'⟩ := ih u hm
      exact ⟨text ++ before, after, ctx', l', by simp, hl', hs',
        by rw [Position.advance_append]; exact hu'⟩

end

lemma Reads.tiling {lx : Lexicon} {ctx : Context} {source : Text} {ts : List Token}
    (h : Reads lx ctx .start source ts) : Tiling source ts where
  nonempty := h.nonempty
  texts := h.texts
  spans := by
    intro u hu
    obtain ⟨before, after, _, l, rfl, -, -, hu'⟩ := h.lexemes u hu
    refine ⟨before.length, (before ++ u.text).length, ?_, by simp⟩
    rw [hu', Lexeme.token, ← Position.advance_append, ← Position.advance_start_append,
      ← List.append_assoc, ← Position.advance_start_append]
  first := h.head?_span
  chain := h.chain
  last := by
    intro u hu
    have := h.getLast?_span u hu
    rw [Position.advance_start, Option.map_eq_some_iff] at this
    obtain ⟨s, hs, hp⟩ := this
    simp [hs, hp, placeAt]

/-- A refusal names the place, and the text from there on is what cannot be read. -/
lemma Refused.place {lx : Lexicon} {ctx : Context} {p : Position} {t : Text} {e : LexError}
    (h : Refused lx ctx p t e) : ∃ before after ctx', t = before ++ after ∧ after ≠ [] ∧
      e.position = p.advance before ∧ lexeme lx ctx' after = .error e.fault := by
  induction h with
  | @here ctx p t fault ht hl => exact ⟨[], t, ctx, rfl, ht, rfl, hl⟩
  | @later ctx p text rest l e _ _ _ _ ih =>
    obtain ⟨before, after, ctx', rfl, ha, hp, hl⟩ := ih
    exact ⟨text ++ before, after, ctx', by simp, ha, by rw [hp, Position.advance_append], hl⟩

/-- A substantial dialect reads a text by steps that each take at least one character, until the
text ends or a comment or a string in it is not closed. The tokens tile the text, and every place,
also that of an error, has the line and the column that its offset has in the text. -/
theorem tokenize_tiles_source (d : Dialect) (hd : d.Substantial) (source : Text) :
    (∀ ctx t, t ≠ [] →
      match lexeme d.lexicon ctx t with
      | .ok l => 0 < l.size ∧ l.size ≤ t.length
      | .error fault => fault ≠ .emptyOpener) ∧
    match tokenize d source with
    | .ok ts => Tiling source ts ∧ ∀ t ∈ ts, ∃ ctx l n, lexeme d.lexicon ctx (source.drop n) = .ok l ∧
        t.span.map Span.start = some (placeAt source n) ∧ t.kind = l.kind ∧ t.text.length = l.size
    | .error e => e.fault ≠ .emptyOpener ∧ e.position.offset < source.length ∧
        e.position = placeAt source e.position.offset := by
  refine ⟨fun ctx t ht => lexeme_size_bounds hd ctx ht, ?_⟩
  cases h : tokenize d source with
  | ok ts =>
    have hr := (tokensFrom_eq_ok_iff hd).mp h
    refine ⟨hr.tiling, fun u hu => ?_⟩
    obtain ⟨before, after, ctx, l, rfl, hl, hs, hu'⟩ := hr.lexemes u hu
    refine ⟨ctx, l, before.length, by simpa using hl, ?_, by rw [hu']; rfl, hs.symm⟩
    rw [hu', ← Position.advance_start_append]
    rfl
  | error e =>
    obtain ⟨before, after, ctx, rfl, ha, hp, hl⟩ := ((tokensFrom_eq_error_iff hd).mp h).place
    have hb := lexeme_size_bounds hd ctx ha
    rw [hl] at hb
    rw [Position.advance_start_append before after] at hp
    refine ⟨hb, ?_, ?_⟩
    · simpa [hp, placeAt, List.length_pos_iff] using ha
    · rw [hp]
      rfl

theorem tokenize_tiles_source_two_lines :
    Dialect.standard.Substantial ∧ ∃ ts, tokenize .standard "(\n'b' ?1 -- c".toList = .ok ts ∧
      Tiling "(\n'b' ?1 -- c".toList ts := by
  have hread : (tokenize .standard "(\n'b' ?1 -- c".toList).isOk = true := by decide +kernel
  have htiles := (tokenize_tiles_source .standard Dialect.standard_substantial
    "(\n'b' ?1 -- c".toList).2
  cases h : tokenize .standard "(\n'b' ?1 -- c".toList with
  | ok ts =>
    rw [h] at htiles
    exact ⟨Dialect.standard_substantial, ts, rfl, htiles.1⟩
  | error e =>
    rw [h] at hread
    cases hread

end SqlLayout
