import SqlLayout.Proofs.Rules
import SqlLayout.Proofs.Tiling

/-!
# The grammar of strings

A string literal is an opener, a sequence of items and a closing quote. `Literal` says so without
regard to how strings are scanned. The scanner finds a literal wherever one stands in front of
anything but its closing quote, and there is never more than one to find. Where there is none, the
whole query is refused at the opener.
-/

namespace SqlLayout

/-- What a string can begin with, and what then closes it. -/
def stringQuotes : List (Text × Char) :=
  [(['\x22'], '\x22'), (['\x27'], '\x27'), (['\x60'], '\x60'), (['['], ']'), (['N', '\x27'], '\x27')]

/-- The closing quotes of strings in which a backslash takes the next character with it. -/
def Escapes (closer : Char) : Prop :=
  closer = '\x27' ∨ closer = '\x22'

/-- What a string is made of between its quotes. -/
inductive StringItem (closer : Char) : Text → Prop
  | doubled : StringItem closer [closer, closer]
  | escaped (c : Char) : Escapes closer → StringItem closer ['\\', c]
  | plain {c : Char} : c ≠ closer → ¬(Escapes closer ∧ c = '\\') → StringItem closer [c]

/-- A text is a string literal with the given quotes. -/
def Literal (opener : Text) (closer : Char) (v : Text) : Prop :=
  ∃ items : List Text, (∀ i ∈ items, StringItem closer i) ∧ v = opener ++ (items.flatten ++ [closer])

/-- A string literal stands at the head of a text, and its closing quote does not go on. -/
def LiteralAt (opener : Text) (closer : Char) (v t : Text) : Prop :=
  ∃ rest, t = v ++ rest ∧ Literal opener closer v ∧ rest.head? ≠ some closer

/-! ### Scanning -/

lemma backslashEscapes_iff {closer : Char} : backslashEscapes closer = true ↔ Escapes closer := by
  simp [backslashEscapes, Escapes]

lemma not_backslash_closer (closer : Char) : ¬(closer = '\\' ∧ backslashEscapes closer = true) := by
  rintro ⟨rfl, he⟩
  exact absurd he (by decide)

lemma quoteSize?_item {closer : Char} {i : Text} (h : StringItem closer i) {t : Text} (ht : t ≠ []) :
    quoteSize? closer (i ++ t) = (quoteSize? closer t).map (· + i.length) := by
  cases h with
  | doubled =>
    rw [List.cons_append, List.cons_append, quoteSize?, if_neg (not_backslash_closer closer), if_pos rfl,
      if_pos rfl]
    rfl
  | escaped c he =>
    rw [List.cons_append, List.cons_append, quoteSize?, if_pos ⟨rfl, backslashEscapes_iff.mpr he⟩]
    rfl
  | @plain c hc he =>
    have hne : ¬(c = '\\' ∧ backslashEscapes closer = true) :=
      fun h => he ⟨backslashEscapes_iff.mp h.2, h.1⟩
    obtain ⟨d, t, rfl⟩ := List.exists_cons_of_ne_nil ht
    rw [List.cons_append, List.nil_append, quoteSize?, if_neg hne, if_neg hc]
    rfl

lemma quoteSize?_closer {closer : Char} {rest : Text} (h : rest.head? ≠ some closer) :
    quoteSize? closer (closer :: rest) = some 1 := by
  cases rest with
  | nil => simp [quoteSize?]
  | cons d rest =>
    have hd : d ≠ closer := by simpa using h
    rw [quoteSize?, if_neg (not_backslash_closer closer), if_pos rfl, if_neg hd]

lemma quoteSize?_items {closer : Char} {items : List Text} (h : ∀ i ∈ items, StringItem closer i)
    {rest : Text} (hrest : rest.head? ≠ some closer) :
    quoteSize? closer (items.flatten ++ closer :: rest) = some (items.flatten.length + 1) := by
  induction items with
  | nil => exact quoteSize?_closer hrest
  | cons i items ih =>
    have hitems : ∀ j ∈ items, StringItem closer j := fun j hj => h j (List.mem_cons_of_mem i hj)
    rw [List.flatten_cons, List.append_assoc, quoteSize?_item (h i List.mem_cons_self) (by simp), ih hitems,
      Option.map_some, List.length_append]
    congr 1
    omega

/-- A text begins with items and, behind them, the closing quote that does not go on; the given number of
characters is theirs. -/
def ClosesAfter (closer : Char) (t : Text) (n : Nat) : Prop :=
  ∃ (items : List Text) (rest : Text), (∀ i ∈ items, StringItem closer i) ∧
    t = items.flatten ++ closer :: rest ∧ rest.head? ≠ some closer ∧ n = items.flatten.length + 1

lemma ClosesAfter.cons {closer : Char} {i t : Text} {n : Nat} (hi : StringItem closer i)
    (h : ClosesAfter closer t n) : ClosesAfter closer (i ++ t) (n + i.length) := by
  obtain ⟨items, rest, hitems, rfl, hrest, rfl⟩ := h
  refine ⟨i :: items, rest, List.forall_mem_cons.mpr ⟨hi, hitems⟩, by simp, hrest, ?_⟩
  rw [List.flatten_cons, List.length_append]
  omega

lemma closesAfter_of_quoteSize? {closer : Char} {t : Text} {n : Nat} (h : quoteSize? closer t = some n) :
    ClosesAfter closer t n := by
  fun_induction quoteSize? closer t generalizing n with
  | case1 => simp at h
  | case2 =>
    obtain rfl : 1 = n := by simpa using h
    exact ⟨[], [], by simp, rfl, by simp, rfl⟩
  | case3 => simp at h
  | case4 c d rest he ih =>
    obtain ⟨m, hm, rfl⟩ := Option.map_eq_some_iff.mp h
    obtain ⟨rfl, he⟩ := he
    exact (ih hm).cons (.escaped d (backslashEscapes_iff.mp he))
  | case5 rest hne ih =>
    obtain ⟨m, hm, rfl⟩ := Option.map_eq_some_iff.mp h
    exact (ih hm).cons .doubled
  | case6 d rest hd hne =>
    obtain rfl : 1 = n := by simpa using h
    exact ⟨[], d :: rest, by simp, rfl, by simpa using hd, rfl⟩
  | case7 c d rest he hc ih =>
    obtain ⟨m, hm, rfl⟩ := Option.map_eq_some_iff.mp h
    have hplain : ¬(Escapes closer ∧ c = '\\') := fun h => he ⟨h.2, backslashEscapes_iff.mpr h.1⟩
    exact (ih hm).cons (.plain hc hplain)

/-- Behind an opener, the scan finds exactly the literals. -/
lemma literalAt_append_iff {opener : Text} {closer : Char} {r v : Text} :
    LiteralAt opener closer v (opener ++ r) ↔
      ∃ n, quoteSize? closer r = some n ∧ v = opener ++ r.take n := by
  constructor
  · rintro ⟨rest, hr, ⟨items, hitems, rfl⟩, hrest⟩
    rw [List.append_assoc, List.append_cancel_left_eq, List.append_assoc] at hr
    refine ⟨items.flatten.length + 1, hr ▸ quoteSize?_items hitems hrest, ?_⟩
    rw [hr, List.take_length_add_append]
    rfl
  · rintro ⟨n, hn, rfl⟩
    obtain ⟨items, rest, hitems, rfl, hrest, rfl⟩ := closesAfter_of_quoteSize? hn
    have htake : (items.flatten ++ closer :: rest).take (items.flatten.length + 1) = items.flatten ++ [closer] := by
      rw [List.take_length_add_append]
      rfl
    rw [htake]
    exact ⟨rest, by simp, ⟨items, hitems, rfl⟩, hrest⟩

lemma LiteralAt.exists_append {opener : Text} {closer : Char} {v t : Text} (h : LiteralAt opener closer v t) :
    ∃ r, t = opener ++ r := by
  obtain ⟨rest, rfl, ⟨items, -, rfl⟩, -⟩ := h
  exact ⟨_, List.append_assoc _ _ _⟩

lemma LiteralAt.unique {opener : Text} {closer : Char} {v w t : Text} (hv : LiteralAt opener closer v t)
    (hw : LiteralAt opener closer w t) : v = w := by
  obtain ⟨r, rfl⟩ := hv.exists_append
  obtain ⟨n, hn, rfl⟩ := literalAt_append_iff.mp hv
  obtain ⟨m, hm, rfl⟩ := literalAt_append_iff.mp hw
  rw [Option.some.inj (hn.symm.trans hm)]

/-! ### Reading up to a place -/

/-- Reading a query has come to a place with some tokens, in a context and with a text still to be read. -/
inductive Reaches (lx : Lexicon) (source : Text) : List Token → Context → Position → Text → Prop
  | start : Reaches lx source [] .start .start source
  | token {ts : List Token} {ctx : Context} {p : Position} {text rest : Text} {l : Lexeme} :
      Reaches lx source ts ctx p (text ++ rest) → lexeme lx ctx (text ++ rest) = .ok l →
      l.size = text.length → text ≠ [] →
      Reaches lx source (ts ++ [l.token p text]) (ctx.next l.kind text) (p.advance text) rest

namespace Reaches

variable {lx : Lexicon} {source : Text} {ts : List Token} {ctx : Context} {p : Position} {t : Text}

lemma unique (h : Reaches lx source ts ctx p t) {ctx' : Context} {p' : Position} {t' : Text}
    (h' : Reaches lx source ts ctx' p' t') : ctx = ctx' ∧ p = p' ∧ t = t' := by
  induction h generalizing ctx' p' t' with
  | start =>
    generalize hts : ([] : List Token) = us at h'
    cases h' with
    | start => exact ⟨rfl, rfl, rfl⟩
    | token => simp at hts
  | @token ts ctx p text rest l _ hl _ _ ih =>
    generalize hts : ts ++ [l.token p text] = us at h'
    cases h' with
    | start => simp at hts
    | @token us ctx' p' text' _ l' hreach hl' _ _ =>
      obtain ⟨rfl, htoken⟩ := List.append_inj' hts rfl
      obtain ⟨rfl, rfl, hsplit⟩ := ih hreach
      have htext : text = text' := congrArg Token.text (List.cons.inj htoken).1
      subst htext
      obtain rfl : rest = t' := List.append_cancel_left hsplit
      obtain rfl : l = l' := Except.ok.inj (hl.symm.trans hl')
      exact ⟨rfl, rfl, rfl⟩

lemma tokensFrom_eq (h : Reaches lx source ts ctx p t) :
    tokensFrom lx .start .start source =
      match tokensFrom lx ctx p t with
      | .error e => .error e
      | .ok us => .ok (ts ++ us) := by
  induction h with
  | start => cases tokensFrom lx .start .start source <;> rfl
  | @token ts ctx p text rest l _ hl hsize hne ih =>
    rw [ih, tokensFrom_step hl hsize hne]
    cases tokensFrom lx (ctx.next l.kind text) (p.advance text) rest with
    | error e => rfl
    | ok us => simp

end Reaches

lemma Position.offset_advance (p : Position) (t : Text) : (p.advance t).offset = p.offset + t.length := by
  induction t generalizing p with
  | nil => rfl
  | cons c t ih =>
    change ((p.next c).advance t).offset = _
    have hnext : (p.next c).offset = p.offset + 1 := by
      unfold Position.next
      split <;> rfl
    rw [ih, hnext, List.length_cons]
    omega

/-! ### Strings in a query -/

lemma lexeme_opener {opener : Text} {closer : Char} (h : (opener, closer) ∈ stringQuotes) (ctx : Context)
    (r : Text) : lexeme Dialect.standard.lexicon ctx (opener ++ r) =
      match quoteSize? closer r with
      | some n => .ok { kind := .quoted, size := opener.length + n }
      | none => .error (.unclosedString closer) := by
  simp only [stringQuotes, List.mem_cons, Prod.mk.injEq, List.not_mem_nil, or_false] at h
  rcases h with ⟨rfl, rfl⟩ | ⟨rfl, rfl⟩ | ⟨rfl, rfl⟩ | ⟨rfl, rfl⟩ | ⟨rfl, rfl⟩ <;>
    exact lexeme_cons ctx _ _

def stringToken (p : Position) (v : Text) : Token where
  kind := .quoted
  text := v
  span := some ⟨p, p.advance v⟩

section

variable {source : Text} {ts : List Token} {ctx : Context} {p : Position} {opener r : Text} {closer : Char}
  (h : Reaches Dialect.standard.lexicon source ts ctx p (opener ++ r))
  (hq : (opener, closer) ∈ stringQuotes)
include h hq

lemma reaches_stringToken {v : Text} (hv : LiteralAt opener closer v (opener ++ r)) :
    v ≠ [] ∧ ∃ ctx' rest,
      Reaches Dialect.standard.lexicon source (ts ++ [stringToken p v]) ctx' (p.advance v) rest := by
  obtain ⟨n, hn, rfl⟩ := literalAt_append_iff.mp hv
  have hlexeme := lexeme_opener hq ctx r
  obtain ⟨hpos, hle⟩ := quoteSize?_bounds hn
  have hlength : (opener ++ r.take n).length = opener.length + n := by
    rw [List.length_append, List.length_take_of_le hle]
  have hne : opener ++ r.take n ≠ [] := by
    intro hnil
    rw [hnil, List.length_nil] at hlength
    omega
  have hsplit : opener ++ r = (opener ++ r.take n) ++ r.drop n := by
    rw [List.append_assoc, List.take_append_drop]
  rw [hn, hsplit] at hlexeme
  rw [hsplit] at h
  exact ⟨hne, _, _, h.token hlexeme hlength.symm hne⟩

lemma literalAt_of_reaches {token : Token} {ctx' : Context} {p' : Position} {t' : Text}
    (hnext : Reaches Dialect.standard.lexicon source (ts ++ [token]) ctx' p' t') :
    ∃ v, LiteralAt opener closer v (opener ++ r) ∧ token = stringToken p v := by
  generalize hts : ts ++ [token] = us at hnext
  cases hnext with
  | start => simp at hts
  | @token us ctx₀ p₀ text rest l hreach hl hsize hne =>
    obtain ⟨rfl, htoken⟩ := List.append_inj' hts rfl
    obtain ⟨rfl, rfl, hsplit⟩ := h.unique hreach
    rw [← hsplit, lexeme_opener hq ctx r] at hl
    cases hn : quoteSize? closer r with
    | none => simp [hn] at hl
    | some n =>
      rw [hn] at hl
      obtain rfl := Except.ok.inj hl
      refine ⟨text, literalAt_append_iff.mpr ⟨n, hn, ?_⟩, (List.cons.inj htoken).1⟩
      rw [← List.take_length_add_append, hsplit]
      exact (List.take_left' hsize.symm).symm

lemma not_refused_at_literal {v : Text} (hv : LiteralAt opener closer v (opener ++ r)) (fault : LexFault) :
    tokenize .standard source ≠ .error ⟨fault, p⟩ := by
  intro herror
  obtain ⟨hne, ctx', rest, hnext⟩ := reaches_stringToken h hq hv
  rw [tokenize, hnext.tokensFrom_eq] at herror
  cases hrest : tokensFrom Dialect.standard.lexicon ctx' (p.advance v) rest with
  | ok us => simp [hrest] at herror
  | error e =>
    rw [hrest, Except.error.injEq] at herror
    obtain ⟨before, -, -, -, -, hplace, -⟩ :=
      ((tokensFrom_eq_error_iff Dialect.standard_substantial).mp hrest).place
    rw [herror] at hplace
    have hoffset : p.offset = ((p.advance v).advance before).offset := congrArg Position.offset hplace
    rw [Position.offset_advance, Position.offset_advance] at hoffset
    have hpos := List.length_pos_iff.mpr hne
    omega

lemma tokenize_of_unclosed (hnone : ¬∃ v, LiteralAt opener closer v (opener ++ r)) :
    tokenize .standard source = .error ⟨.unclosedString closer, p⟩ := by
  have hlexeme := lexeme_opener hq ctx r
  cases hn : quoteSize? closer r with
  | some n => exact absurd ⟨_, literalAt_append_iff.mpr ⟨n, hn, rfl⟩⟩ hnone
  | none =>
    rw [hn] at hlexeme
    have hne : opener ++ r ≠ [] := by
      intro hnil
      obtain ⟨rfl, -⟩ := List.append_eq_nil_iff.mp hnil
      revert hq
      simp [stringQuotes]
    rw [tokenize, h.tokensFrom_eq, tokensFrom_of_refused (.here hne hlexeme)]

end

/-- The scanner of strings accepts exactly its grammar. At any place of a query that reading comes to and
where an opener stands, the next token is a string with a given text if and only if that text is a literal
at the head of what is left, followed by anything but its closing quote. There is at most one such text,
and the query is refused at the opener if and only if there is none. -/
theorem string_token_iff_literal (source : Text) (ts : List Token) (ctx : Context) (p : Position)
    (opener : Text) (closer : Char) (r : Text)
    (h : Reaches Dialect.standard.lexicon source ts ctx p (opener ++ r))
    (hq : (opener, closer) ∈ stringQuotes) :
    (∀ token, (∃ ctx' p' t', Reaches Dialect.standard.lexicon source (ts ++ [token]) ctx' p' t') ↔
      ∃ v, LiteralAt opener closer v (opener ++ r) ∧ token = stringToken p v) ∧
    (∀ v w, LiteralAt opener closer v (opener ++ r) → LiteralAt opener closer w (opener ++ r) → v = w) ∧
    ∀ fault, tokenize .standard source = .error ⟨fault, p⟩ ↔
      fault = .unclosedString closer ∧ ¬∃ v, LiteralAt opener closer v (opener ++ r) := by
  refine ⟨fun token => ⟨?_, ?_⟩, fun v w hv hw => hv.unique hw, fun fault => ⟨fun herror => ?_, ?_⟩⟩
  · rintro ⟨ctx', p', t', hnext⟩
    exact literalAt_of_reaches h hq hnext
  · rintro ⟨v, hv, rfl⟩
    obtain ⟨-, ctx', rest, hnext⟩ := reaches_stringToken h hq hv
    exact ⟨ctx', _, rest, hnext⟩
  · have hnone : ¬∃ v, LiteralAt opener closer v (opener ++ r) := by
      rintro ⟨v, hv⟩
      exact not_refused_at_literal h hq hv fault herror
    rw [tokenize_of_unclosed h hq hnone, Except.error.injEq, LexError.mk.injEq] at herror
    exact ⟨herror.1.symm, hnone⟩
  · rintro ⟨rfl, hnone⟩
    exact tokenize_of_unclosed h hq hnone

theorem string_token_iff_literal_behind_bracket :
    (∃ ts ctx p t, Reaches Dialect.standard.lexicon "(N\x27a\x27\x27b\\\x27\x27)".toList
      (ts ++ [stringToken ⟨1, 2, 1⟩ "N\x27a\x27\x27b\\\x27\x27".toList]) ctx p t) ∧
    tokenize .standard "(\x60\x27\x60\x60".toList = .error ⟨.unclosedString '\x60', ⟨1, 2, 1⟩⟩ := by
  have hbracket : ∀ r, Reaches Dialect.standard.lexicon ('(' :: r) [Lexeme.token ⟨.opening, 1, none⟩ .start ['(']]
      (Context.next .start .opening ['(']) (Position.start.advance ['(']) r := by
    intro r
    have hstart : Reaches Dialect.standard.lexicon ('(' :: r) [] .start .start (['('] ++ r) := .start
    exact hstart.token rfl rfl (by simp)
  constructor
  · have hspec := string_token_iff_literal _ _ _ _ ['N', '\x27'] '\x27' "a\x27\x27b\\\x27\x27)".toList
      (hbracket _) (by simp [stringQuotes])
    have hliteral : LiteralAt ['N', '\x27'] '\x27' "N\x27a\x27\x27b\\\x27\x27".toList
        "N\x27a\x27\x27b\\\x27\x27)".toList := by
      refine ⟨[')'], rfl, ⟨[['a'], ['\x27', '\x27'], ['b'], ['\\', '\x27']], ?_, rfl⟩, by simp⟩
      simp only [List.forall_mem_cons]
      exact ⟨.plain (by decide) (by simp [Escapes]), .doubled, .plain (by decide) (by simp [Escapes]),
        .escaped _ (.inl rfl), by simp⟩
    obtain ⟨ctx, p, t, hnext⟩ := (hspec.1 _).mpr ⟨_, hliteral, rfl⟩
    exact ⟨_, ctx, p, t, hnext⟩
  · have hspec := string_token_iff_literal _ _ _ _ ['\x60'] '\x60' "\x27\x60\x60".toList
      (hbracket _) (by simp [stringQuotes])
    refine (hspec.2.2 _).mpr ⟨rfl, ?_⟩
    rintro ⟨v, hv⟩
    obtain ⟨n, hn, -⟩ := literalAt_append_iff.mp hv
    exact absurd hn (by simp [quoteSize?, backslashEscapes])

end SqlLayout
