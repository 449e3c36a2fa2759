import SqlLayout.Proofs.Seams
import SqlLayout.Proofs.Tiling

/-!
# Reading across a statement separator

No rule looks past a semicolon. What stands at the head of a text that can be read stays the same if a
semicolon and any other text follow, and behind the semicolon reading begins anew. A query of several
statements is therefore read statement by statement; only the places are counted from the start of the
whole.
-/

namespace SqlLayout

open Lexeme

/-! ### Rules in front of a semicolon -/

lemma takeWhile_separator {p : Char → Bool} (hp : p ';' = false) (t b : Text) :
    (t ++ ';' :: b).takeWhile p = t.takeWhile p := by
  induction t with
  | nil => simp [hp]
  | cons c t ih => rw [List.cons_append, List.takeWhile_cons, List.takeWhile_cons, ih]

lemma startsWith_separator {w : Text} (hw : ';' ∉ w) (t b : Text) :
    Text.startsWith (t ++ ';' :: b) w = Text.startsWith t w := by
  by_cases hlen : w.length ≤ t.length
  · exact startsWith_append hlen _
  · have hnot : ¬w <+: t ++ [';'] ++ b := by
      intro hpre
      have hsign : t ++ [';'] <+: w :=
        List.prefix_of_prefix_length_le (List.prefix_append _ b) hpre (by simp; omega)
      exact hw (hsign.subset (by simp))
    have hshort : ¬w <+: t := fun hpre => hlen hpre.length_le
    rw [Bool.eq_iff_iff, startsWith_iff, startsWith_iff, List.append_cons]
    exact iff_of_false hnot hshort

lemma find?_startsWith_separator {ws : List Text} (hws : ∀ w ∈ ws, ';' ∉ w) (t b : Text) :
    ws.find? (Text.startsWith (t ++ ';' :: b)) = ws.find? t.startsWith := by
  induction ws with
  | nil => rfl
  | cons w ws ih =>
    obtain ⟨hw, hws⟩ := List.forall_mem_cons.mp hws
    rw [List.find?_cons, List.find?_cons, startsWith_separator hw, ih hws]

lemma quoteSize?_separator {closer : Char} (hc : closer ≠ ';') {t : Text} {n : Nat}
    (h : quoteSize? closer t = some n) (b : Text) : quoteSize? closer (t ++ ';' :: b) = some n := by
  fun_induction quoteSize? closer t generalizing n with
  | case1 => simp at h
  | case2 =>
    have hesc : ¬(closer = '\\' ∧ backslashEscapes closer = true) := by
      rintro ⟨rfl, hesc⟩
      exact absurd hesc (by decide)
    rw [← h, List.cons_append, List.nil_append, quoteSize?, if_neg hesc, if_pos rfl, if_neg hc.symm]
  | case3 => simp at h
  | case4 c d rest hesc ih =>
    obtain ⟨m, hm, rfl⟩ := Option.map_eq_some_iff.mp h
    rw [List.cons_append, List.cons_append, quoteSize?, if_pos hesc, ih hm]
    rfl
  | case5 rest hesc ih =>
    obtain ⟨m, hm, rfl⟩ := Option.map_eq_some_iff.mp h
    rw [List.cons_append, List.cons_append, quoteSize?, if_neg hesc, if_pos rfl, if_pos rfl, ih hm]
    rfl
  | case6 d rest hd hesc =>
    rw [← h, List.cons_append, List.cons_append, quoteSize?, if_neg hesc, if_pos rfl, if_neg hd]
  | case7 c d rest hesc hne ih =>
    obtain ⟨m, hm, rfl⟩ := Option.map_eq_some_iff.mp h
    rw [List.cons_append, List.cons_append, quoteSize?, if_neg hesc, if_neg hne, ← List.cons_append, ih hm]
    rfl

def Text.endsLine (t : Text) : Bool :=
  t.getLast?.any fun c => c == '\n' || c == '\r'

lemma lineLength_separator {t : Text} (h : t.lineLength < t.length ∨ t.endsLine = true) (b : Text) :
    Text.lineLength (t ++ ';' :: b) = t.lineLength := by
  fun_induction Text.lineLength t with
  | case1 => simp [Text.endsLine] at h
  | case2 => rfl
  | case3 => rfl
  | case4 tail hcr =>
    cases tail with
    | nil => rfl
    | cons c cs =>
      have hc : c ≠ '\n' := fun hc => hcr cs (by rw [hc])
      rw [List.cons_append, List.cons_append, Text.lineLength]
      simpa using fun h => absurd h hc
  | case5 c cs hlf hcrlf hcr ih =>
    have hrest : Text.lineLength cs < cs.length ∨ Text.endsLine cs = true := by
      cases cs with
      | nil =>
        have hends : c = '\n' ∨ c = '\r' := by simpa [Text.endsLine, Text.lineLength] using h
        exact hends.elim (fun hc => (hlf hc).elim) fun hc => (hcr hc).elim
      | cons d ds => simpa [Text.endsLine] using h
    rw [List.cons_append, Text.lineLength, ih hrest]
    · exact hlf
    · exact fun _ hc _ => hcr hc
    · exact hcr

/-! ### Phrases -/

lemma startsWithWord_separator {w : Text} (hw : Spelt w) (t b : Text) :
    startsWithWord w (t ++ ';' :: b) = startsWithWord w t := by
  obtain ⟨-, hw⟩ := hw
  induction w generalizing t with
  | nil => cases t <;> simp [startsWithWord]
  | cons a as ih =>
    cases t with
    | nil =>
      have ha := hw a (by simp)
      have hsign : sameLetter a ';' = false := by
        cases h : sameLetter a ';' with
        | false => rfl
        | true => exact absurd (isWordChar_of_sameLetter ha.1 ha.2 h) (by decide)
      simp [startsWithWord, hsign]
    | cons c cs =>
      rw [List.cons_append, startsWithWord, startsWithWord, ih cs fun d hd => hw d (by simp [hd])]

lemma wordsSize?_separator {ws : List Text} (hws : ∀ w ∈ ws, Spelt w) (t b : Text) :
    wordsSize? ws (t ++ ';' :: b) = wordsSize? ws t := by
  induction ws generalizing t with
  | nil => rfl
  | cons w ws ih =>
    obtain ⟨hw, hws⟩ := List.forall_mem_cons.mp hws
    cases ws with
    | nil => rw [wordsSize?, wordsSize?, startsWithWord_separator hw]
    | cons u us =>
      rw [wordsSize?, wordsSize?, startsWithWord_separator hw]
      · split
        · next hs =>
          have hlen := length_le_of_startsWithWord hs
          simp only
          rw [List.drop_append_of_le_length hlen, takeWhile_separator (by decide),
            List.drop_append_of_le_length (length_takeWhile_le _ _), ih hws]
        · rfl
      · simp
      · simp

lemma phraseSize?_separator {ws : List Text} (hws : ∀ w ∈ ws, Spelt w) (t b : Text) :
    phraseSize? ws (t ++ ';' :: b) = phraseSize? ws t := by
  rw [phraseSize?, phraseSize?, wordsSize?_separator hws]
  cases hn : wordsSize? ws t with
  | none => rfl
  | some n =>
    have hle := (wordsSize?_bounds (fun w hw => (hws w hw).1) hn).2
    have hbound : Text.boundaryAt (t ++ ';' :: b) n = t.boundaryAt n := by
      have hsign : Text.startsWord (';' :: b) = false := show Text.isWordChar ';' = false by decide
      rw [Text.boundaryAt, Text.boundaryAt, List.drop_append_of_le_length hle,
        List.drop_append_of_le_length (by omega), Text.startsWord_append_of_not hsign,
        Text.startsWord_append_of_not hsign]
    rw [Option.filter_some, Option.filter_some, hbound]

/-! ### Lexemes -/

/-- A quoted name begun behind the first sign of a text is closed in it. -/
def Text.ClosesName (t : Text) : Prop :=
  ∀ c q r, t = c :: q :: r → c = '@' ∨ c = ':' → q = '\x27' ∨ q = '\x22' ∨ q = '\x60' → q ∈ r

lemma find?_singleton_of_mem {q : Char} {r : Text} (h : q ∈ r) : ∃ n, Text.find? [q] r = some n := by
  induction r with
  | nil => simp at h
  | cons c r ih =>
    rw [Text.find?, startsWith_one]
    by_cases hc : c = q
    · exact ⟨0, by simp [hc]⟩
    · obtain ⟨n, hn⟩ := ih ((List.mem_cons.mp h).resolve_left (Ne.symm hc))
      exact ⟨n + 1, by simp [hc, hn]⟩

lemma quotedName?_separator {r : Text}
    (h : ∀ q s, r = q :: s → q = '\x27' ∨ q = '\x22' ∨ q = '\x60' → q ∈ s) (b : Text) :
    quotedName? (r ++ ';' :: b) = quotedName? r := by
  cases r with
  | nil => rfl
  | cons q r =>
    rw [List.cons_append, quotedName?, quotedName?]
    split
    · next hq =>
      obtain ⟨n, hn⟩ := find?_singleton_of_mem (h q r rfl hq)
      have hle := find?_length_le hn
      have hfound : Text.find? [q] (r ++ ';' :: b) = some n :=
        find?_append (s := []) (by rwa [List.append_nil]) hle _
      rw [hn, hfound, Option.map_some, Option.map_some,
        List.take_append_of_le_length (Nat.le_of_succ_le hle)]
    · rfl

section

variable {ctx : Context} {t : Text}

lemma placeholder?_separator (ht : t ≠ []) (hname : t.ClosesName) (b : Text) :
    placeholder? Dialect.standard (t ++ ';' :: b) = placeholder? Dialect.standard t := by
  obtain ⟨c, r, rfl⟩ := List.exists_cons_of_ne_nil ht
  rw [List.cons_append, placeholder?, placeholder?, takeWhile_separator (by decide)]
  split
  · rfl
  split
  · next hc =>
    have hsign : c = '@' ∨ c = ':' := by simpa [Dialect.standard_nameMarks] using hc
    have hquoted := quotedName?_separator (r := r) (fun q s hr => hname c q s (by rw [hr]) hsign) b
    have hbare : bareName? (r ++ ';' :: b) = bareName? r := by
      rw [bareName?, bareName?, takeWhile_separator (by decide)]
    rw [hquoted, hbare]
  · rfl

lemma number?_separator (ht : t ≠ []) (b : Text) : number? ctx (t ++ ';' :: b) = number? ctx t := by
  have hword : Text.startsWord (';' :: b) = false := show Text.isWordChar ';' = false by decide
  have hhead : (t ++ ';' :: b).head? = t.head? := List.head?_append_of_ne_nil _ ht
  rw [number?, number?, hhead, numberSize?_append hword ht fun _ => rfl]

lemma keyword?_separator (b : Text) : keyword? Dialect.standard.lexicon ctx (t ++ ';' :: b) =
    keyword? Dialect.standard.lexicon ctx t := by
  rw [keyword?, keyword?]
  split
  · rfl
  · rw [← List.head?_filterMap, ← List.head?_filterMap]
    congr 1
    apply List.filterMap_congr
    rintro ⟨role, ws⟩ hmem
    simp only [phraseSize?_separator (Dialect.standard_spelt hmem)]

lemma word?_separator (lx : Lexicon) (b : Text) : word? lx ctx (t ++ ';' :: b) = word? lx ctx t := by
  rw [word?, word?, takeWhile_separator (by decide)]

lemma operator_separator (b : Text) : Lexeme.operator (t ++ ';' :: b) = Lexeme.operator t := by
  have hsigns : ∀ op ∈ longOperators, ';' ∉ op := by decide
  rw [Lexeme.operator, Lexeme.operator, find?_startsWith_separator hsigns]

lemma plain_separator (ht : t ≠ []) (hname : t.ClosesName) (b : Text) :
    plain Dialect.standard.lexicon ctx (t ++ ';' :: b) = plain Dialect.standard.lexicon ctx t := by
  have hbracket : bracket? Dialect.standard (t ++ ';' :: b) = bracket? Dialect.standard t := by
    obtain ⟨c, r, rfl⟩ := List.exists_cons_of_ne_nil ht
    rfl
  rw [plain_eq, plain_eq, hbracket, placeholder?_separator ht hname, number?_separator ht,
    keyword?_separator, word?_separator, operator_separator]

lemma lexeme_separator {l : Lexeme} (hl : lexeme Dialect.standard.lexicon ctx t = .ok l) (ht : t ≠ [])
    (hname : t.ClosesName) (hline : l.kind = .lineComment → t.lineLength < t.length ∨ t.endsLine = true)
    (b : Text) : lexeme Dialect.standard.lexicon ctx (t ++ ';' :: b) = .ok l := by
  have hmarks : Dialect.standard.lexicon.dialect.commentMarks.any (Text.startsWith (t ++ ';' :: b)) =
      Dialect.standard.lexicon.dialect.commentMarks.any t.startsWith := by
    have hm : Dialect.standard.lexicon.dialect.commentMarks = [['-', '-'], ['#']] := rfl
    simp [hm, startsWith_separator]
  have hquotes : ∀ w ∈ Dialect.standard.lexicon.quotes, ';' ∉ w ∧ closerOf w ≠ ';' := by
    rw [Dialect.standard_quotes]
    decide
  rw [lexeme] at hl ⊢
  rw [Text.startsBlank_append ht, hmarks, startsWith_separator (by decide),
    find?_startsWith_separator fun w hw => (hquotes w hw).1]
  split at hl
  · next hb => rw [if_pos hb, takeWhile_separator (by decide), hl]
  next hb =>
  rw [if_neg hb]
  split at hl
  · next hm =>
    obtain rfl := Except.ok.inj hl
    rw [if_pos hm, lineLength_separator (hline rfl)]
  next hm =>
  rw [if_neg hm]
  split at hl
  · next hc =>
    have hlen : 2 ≤ t.length := (startsWith_iff.mp hc).length_le
    rw [if_pos hc, List.drop_append_of_le_length hlen]
    rw [Lexeme.blockComment] at hl ⊢
    cases hn : Text.find? ['*', '/'] (t.drop 2) with
    | none => simp [hn] at hl
    | some n =>
      rw [hn] at hl
      rw [find?_append (s := []) (by rwa [List.append_nil]) (find?_length_le hn), hl]
  next hc =>
  rw [if_neg hc]
  cases hq : Dialect.standard.lexicon.quotes.find? t.startsWith with
  | none =>
    simp only [hq] at hl ⊢
    rw [plain_separator ht hname, hl]
  | some opener =>
    simp only [hq] at hl ⊢
    have hlen : opener.length ≤ t.length := (startsWith_iff.mp (List.find?_some hq)).length_le
    rw [List.drop_append_of_le_length hlen]
    rw [Lexeme.string] at hl ⊢
    split at hl
    · simp at hl
    · next hne =>
      rw [if_neg hne]
      cases hn : quoteSize? (closerOf opener) (t.drop opener.length) with
      | none => simp [hn] at hl
      | some n =>
        simp only [hn] at hl
        simp only [quoteSize?_separator (hquotes opener (List.mem_of_find?_eq_some hq)).2 hn, hl]

end

/-! ### Readings -/

lemma mem_of_quoteSize? {closer : Char} {t : Text} {n : Nat} (h : quoteSize? closer t = some n) :
    closer ∈ t := by
  have hlen : (t.take n).length = n := List.length_take_of_le (quoteSize?_bounds h).2
  have hspec := quoteSize?_spec (x := t.take n) (s := t.drop n) (by rw [List.take_append_drop, hlen, h])
  exact List.mem_of_mem_take (List.mem_of_getLast? hspec.1)

section

variable {ctx : Context} {q : Char} {r : Text} (hq : q = '\x27' ∨ q = '\x22' ∨ q = '\x60')
include hq

lemma mem_of_lexeme_quote {l : Lexeme} (h : lexeme Dialect.standard.lexicon ctx (q :: r) = .ok l) :
    q ∈ r := by
  have hopener : openerAt? q r = some [q] := by
    rcases hq with rfl | rfl | rfl <;> rfl
  have hcloser : closerOf [q] = q := by
    rcases hq with rfl | rfl | rfl <;> rfl
  have hhead : Text.isBlank q = false ∧ q ≠ '-' ∧ q ≠ '#' ∧ q ≠ '/' := by
    rcases hq with rfl | rfl | rfl <;> decide
  rw [lexeme_cons, if_neg (by simp [hhead.1]), if_neg (by simp [hhead]), if_neg (by simp [hhead]),
    hopener] at h
  cases hn : quoteSize? q r with
  | none => simp [Lexeme.string, hcloser, hn] at h
  | some n => exact mem_of_quoteSize? hn

lemma lexeme_of_unclosed_name {c : Char} (hc : c = '@' ∨ c = ':') (hmem : q ∉ r) :
    lexeme Dialect.standard.lexicon ctx (c :: q :: r) = .ok { kind := .operator, size := 1 } := by
  have hnone : Text.find? [q] r = none := by
    cases hn : Text.find? [q] r with
    | none => rfl
    | some n =>
      have hpre := find?_prefix hn
      exact absurd (List.mem_of_mem_drop (hpre.subset (by simp))) hmem
  have hquoted : quotedName? (q :: r) = none := by rw [quotedName?, if_pos hq, hnone]; rfl
  have hbare : bareName? (q :: r) = none := by
    refine Rule.bareName?_eq_none (show Text.isWordChar q = false from ?_)
    rcases hq with rfl | rfl | rfl <;> decide
  have hplain : startsPlain (c :: q :: r) = true := by
    rw [startsPlain_cons, openerAt?_eq_none]
    rcases hc with rfl | rfl <;> exact ⟨by decide, by simp, by simp, by simp, by decide⟩
  have hsize : (Lexeme.operator (c :: q :: r)).size = 1 := by
    have hops : ∀ op ∈ longOperators, 2 ≤ op.length ∧ op.take 2 ≠ [c, q] := by
      rcases hc with rfl | rfl <;> rcases hq with rfl | rfl | rfl <;> decide
    refine operator_size_of_none fun op hop hpre => (hops op hop).2 ?_
    obtain ⟨k, hk⟩ := hpre
    rw [← List.take_append_of_le_length (hops op hop).1, hk]
    rfl
  rw [lexeme_of_startsPlain hplain, plain_named _ _ hc, hquoted, hbare, ← hsize]
  rfl

end

lemma Reads.exists_lexeme {lx : Lexicon} {ctx : Context} {p : Position} {t : Text} {ts : List Token}
    (h : Reads lx ctx p t ts) (ht : t ≠ []) : ∃ l, lexeme lx ctx t = .ok l ∧
      ∃ ctx' p' ts', Reads lx ctx' p' (t.drop l.size) ts' := by
  cases h with
  | nil => exact absurd rfl ht
  | cons hl hsize _ hrest => exact ⟨_, hl, _, _, _, by rw [hsize, List.drop_left]; exact hrest⟩

lemma Lexed.length_of_lineComment {ctx : Context} {x s : Text} {l : Lexeme} (h : Lexed ctx x s l)
    (hk : l.kind = .lineComment) : x.length = Text.lineLength (x ++ s) := by
  rcases h.cases with ⟨hb, -⟩ | ⟨-, -, hlen⟩ | ⟨hb, -⟩ | ⟨hb, -⟩ | ⟨hp, hl⟩
  · simp [hk] at hb
  · exact hlen
  · simp [hk] at hb
  · simp [hk] at hb
  · have hkind := (Rule.of_plain hp hl h.size h.ne_nil).kind_cases.2.1
    simp [hk, Kind.isComment] at hkind

/-- A text that can be read closes the quoted name at its head, since the quote behind the sign of a
name that is not closed would begin a string. -/
lemma Reads.closesName {ctx : Context} {p : Position} {t : Text} {ts : List Token}
    (h : Reads Dialect.standard.lexicon ctx p t ts) : t.ClosesName := by
  rintro c q r rfl hc hq
  by_contra hmem
  obtain ⟨l, hl, ctx', p', ts', hrest⟩ := h.exists_lexeme (by simp)
  rw [lexeme_of_unclosed_name hq hc hmem, Except.ok.injEq] at hl
  subst hl
  obtain ⟨l, hl, -⟩ := hrest.exists_lexeme (by simp)
  exact hmem (mem_of_lexeme_quote hq hl)

def separatorToken (p q : Position) : Token where
  kind := .operator
  text := [';']
  span := some ⟨p, q⟩

/-- Behind a text that can be read and a semicolon, reading begins anew. -/
lemma Reads.tokensFrom_separator {ctx : Context} {p : Position} {a : Text} {ts : List Token}
    (h : Reads Dialect.standard.lexicon ctx p a ts)
    (hline : ∀ t ∈ ts.getLast?, t.kind = .lineComment → t.text.endsLine = true) (b : Text) :
    tokensFrom Dialect.standard.lexicon ctx p (a ++ ';' :: b) =
      match tokensFrom Dialect.standard.lexicon .start (p.advance (a ++ [';'])) b with
      | .error e => .error e
      | .ok us => .ok (ts ++ separatorToken (p.advance a) (p.advance (a ++ [';'])) :: us) := by
  induction h with
  | nil ctx p =>
    have hl : lexeme Dialect.standard.lexicon ctx ([';'] ++ b) = .ok { kind := .operator, size := 1 } :=
      lexeme_mark (.inr rfl) ctx b
    exact tokensFrom_step hl rfl (by simp)
  | @cons ctx p text rest l ts hl hsize hne hrest ih =>
    have hread : Reads Dialect.standard.lexicon ctx p (text ++ rest) (l.token p text :: ts) :=
      .cons hl hsize hne hrest
    have hlexeme : lexeme Dialect.standard.lexicon ctx (text ++ (rest ++ ';' :: b)) = .ok l := by
      rw [← List.append_assoc]
      refine lexeme_separator hl (by simp [hne]) hread.closesName (fun hk => ?_) b
      have hlength := Lexed.length_of_lineComment ⟨hl, hsize, hne⟩ hk
      have htexts := hrest.texts
      cases ts with
      | nil =>
        obtain rfl : [] = rest := htexts
        exact .inr (by rw [List.append_nil]; exact hline _ rfl hk)
      | cons u us =>
        have hpos := List.length_pos_iff.mpr (hrest.nonempty u (by simp))
        rw [← hlength, ← htexts]
        exact .inl (by simp; omega)
    have hrest' : ∀ t ∈ ts.getLast?, t.kind = .lineComment → t.text.endsLine = true := by
      cases ts with
      | nil => simp
      | cons u us => exact hline
    rw [List.append_assoc, tokensFrom_step hlexeme hsize hne, ih hrest', ← Position.advance_append,
      List.append_assoc, ← Position.advance_append]
    cases tokensFrom Dialect.standard.lexicon .start (p.advance (text ++ (rest ++ [';']))) b <;> rfl

/-! ### Places counted from a later start -/

/-- A place of a text that itself begins at another place: the columns of its first line are shifted, and
the lines and offsets of all of it. -/
def Position.behind (p q : Position) : Position where
  line := p.line + (q.line - 1)
  column := if q.line = 1 then p.column + (q.column - 1) else q.column
  offset := p.offset + q.offset

/-- A token of a text that itself begins at a place. -/
def Token.behind (p : Position) (t : Token) : Token :=
  { t with span := t.span.map fun s => ⟨p.behind s.start, p.behind s.stop⟩ }

/-- A place counted from the start: lines and columns are counted from 1. -/
def Position.IsCounted (q : Position) : Prop :=
  0 < q.line ∧ 0 < q.column

lemma Position.isCounted_next {q : Position} (h : q.IsCounted) (c : Char) : (q.next c).IsCounted := by
  rw [next]
  split
  · exact ⟨Nat.succ_pos _, Nat.one_pos⟩
  · exact ⟨h.1, Nat.succ_pos _⟩

lemma Position.isCounted_advance {q : Position} (h : q.IsCounted) (t : Text) : (q.advance t).IsCounted := by
  induction t generalizing q with
  | nil => exact h
  | cons c t ih => exact ih (isCounted_next h c)

lemma Position.behind_start (p : Position) : p.behind start = p := rfl

lemma Position.behind_next (p : Position) {q : Position} (h : q.IsCounted) (c : Char) :
    (p.behind q).next c = p.behind (q.next c) := by
  obtain ⟨hline, hcolumn⟩ := h
  by_cases hc : c = '\n'
  · simp only [next, behind, hc, if_true]
    rw [if_neg (by omega), Position.mk.injEq]
    omega
  · simp only [next, behind, hc, if_false, Position.mk.injEq]
    refine ⟨trivial, ?_, by omega⟩
    by_cases hfirst : q.line = 1
    · rw [if_pos hfirst, if_pos hfirst]
      omega
    · rw [if_neg hfirst, if_neg hfirst]

lemma Position.behind_advance (p : Position) {q : Position} (h : q.IsCounted) (t : Text) :
    (p.behind q).advance t = p.behind (q.advance t) := by
  induction t generalizing q with
  | nil => rfl
  | cons c t ih =>
    change ((p.behind q).next c).advance t = p.behind ((q.next c).advance t)
    rw [behind_next p h, ih (isCounted_next h c)]

section

variable {lx : Lexicon} {ctx : Context} {q : Position} {t : Text}

lemma Reads.behind {ts : List Token} (h : Reads lx ctx q t ts) (hq : q.IsCounted) (p : Position) :
    Reads lx ctx (p.behind q) t (ts.map (Token.behind p)) := by
  induction h with
  | nil => exact .nil _ _
  | @cons ctx q text rest l ts hl hsize hne _ ih =>
    have htoken : Token.behind p (l.token q text) = l.token (p.behind q) text := by
      rw [Token.behind, Lexeme.token, Lexeme.token, Position.behind_advance p hq]
      rfl
    have hrest := ih (Position.isCounted_advance hq text)
    rw [← Position.behind_advance p hq] at hrest
    rw [List.map_cons, htoken]
    exact .cons hl hsize hne hrest

lemma Refused.behind {e : LexError} (h : Refused lx ctx q t e) (hq : q.IsCounted) (p : Position) :
    Refused lx ctx (p.behind q) t ⟨e.fault, p.behind e.position⟩ := by
  induction h with
  | here ht hl => exact .here ht hl
  | @later ctx q text rest l e hl hsize hne _ ih =>
    have hrest := ih (Position.isCounted_advance hq text)
    rw [← Position.behind_advance p hq] at hrest
    exact .later hl hsize hne hrest

end

lemma Position.isCounted_start : Position.start.IsCounted :=
  ⟨Nat.one_pos, Nat.one_pos⟩

lemma tokenize_separator {a b : Text} {ts us : List Token} (h : tokenize .standard a = .ok ts)
    (hline : ∀ t ∈ ts.getLast?, t.kind = .lineComment → t.text.endsLine = true)
    (hus : tokenize .standard b = .ok us) :
    tokenize .standard (a ++ ';' :: b) =
      .ok (ts ++ separatorToken (Position.start.advance a) (Position.start.advance (a ++ [';'])) ::
        us.map (Token.behind (Position.start.advance (a ++ [';'])))) := by
  have hread := (tokensFrom_eq_ok_iff Dialect.standard_substantial).mp h
  have hrest := ((tokensFrom_eq_ok_iff Dialect.standard_substantial).mp hus).behind Position.isCounted_start
    (Position.start.advance (a ++ [';']))
  rw [Position.behind_start] at hrest
  rw [tokenize, hread.tokensFrom_separator hline b, tokensFrom_of_reads hrest]

/-- Statements are read one by one. Behind a text that can be read, unless it ends in a line comment
without its line break, a semicolon is a token of its own, and the text behind it is read or refused as
if it stood alone, at places counted from the end of the semicolon. -/
theorem tokenize_append_separator (a b : Text) (ts : List Token) (h : tokenize .standard a = .ok ts)
    (hline : ∀ t ∈ ts.getLast?, t.kind = .lineComment → t.text.endsLine = true) :
    (∀ us, tokenize .standard b = .ok us →
      tokenize .standard (a ++ ';' :: b) =
        .ok (ts ++ separatorToken (Position.start.advance a) (Position.start.advance (a ++ [';'])) ::
          us.map (Token.behind (Position.start.advance (a ++ [';']))))) ∧
    ∀ e, tokenize .standard b = .error e →
      tokenize .standard (a ++ ';' :: b) =
        .error ⟨e.fault, (Position.start.advance (a ++ [';'])).behind e.position⟩ := by
  refine ⟨fun us hus => tokenize_separator h hline hus, fun e he => ?_⟩
  have hread := (tokensFrom_eq_ok_iff Dialect.standard_substantial).mp h
  have hrest := ((tokensFrom_eq_error_iff Dialect.standard_substantial).mp he).behind Position.isCounted_start
    (Position.start.advance (a ++ [';']))
  rw [Position.behind_start] at hrest
  rw [tokenize, hread.tokensFrom_separator hline b, tokensFrom_of_refused hrest]

theorem tokenize_append_separator_of_comment :
    tokenize .standard "#\n;(".toList =
      .ok [⟨.lineComment, ['#', '\n'], none, some ⟨⟨1, 1, 0⟩, ⟨2, 1, 2⟩⟩⟩, separatorToken ⟨2, 1, 2⟩ ⟨2, 2, 3⟩,
        ⟨.opening, ['('], none, some ⟨⟨2, 2, 3⟩, ⟨2, 3, 4⟩⟩⟩] ∧
    tokenize .standard "#\n;\x27".toList = .error ⟨.unclosedString '\x27', ⟨2, 2, 3⟩⟩ := by
  have hcomment : Reads Dialect.standard.lexicon .start .start (['#', '\n'] ++ [])
      [Lexeme.token ⟨.lineComment, 2, none⟩ .start ['#', '\n']] := .cons rfl rfl (by simp) (.nil _ _)
  have hbracket : Reads Dialect.standard.lexicon .start .start (['('] ++ [])
      [Lexeme.token ⟨.opening, 1, none⟩ .start ['(']] := .cons rfl rfl (by simp) (.nil _ _)
  have hquote : Refused Dialect.standard.lexicon .start .start ['\x27'] ⟨.unclosedString '\x27', .start⟩ :=
    .here (by simp) rfl
  have hspec := fun b => tokenize_append_separator ['#', '\n'] b _ (tokensFrom_of_reads hcomment)
    (by simp [Lexeme.token, Text.endsLine])
  exact ⟨(hspec ['(']).1 _ (tokensFrom_of_reads hbracket), (hspec ['\x27']).2 _ (tokensFrom_of_refused hquote)⟩

end SqlLayout
