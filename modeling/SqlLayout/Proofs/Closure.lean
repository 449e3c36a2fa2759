import SqlLayout.Proofs.Fidelity

/-!
# Formatted queries can be read

A text is closed if every string, quoted name and block comment that begins in it ends in it. A closed
text can be read, whatever its tokens are, and the page of a query is closed, even where its tokens
run into each other. So formatting again and again never fails.
-/

namespace SqlLayout

open Lexeme

/-- The characters that a string, a comment or a named placeholder can begin with. -/
def openingSigns : List Char :=
  ['\x27', '\x22', '\x60', '[', '#', '-', '/', '@', ':']

/-- Whether a text begins with a quote that a name can stand in. -/
def Text.startsQuote : Text → Bool
  | [] => false
  | c :: _ => c == '\x27' || c == '\x22' || c == '\x60'

/-- A text that makes no quoted name of a sign before it, nor of one colon more. -/
def Text.Unquoted (k : Text) : Prop :=
  k.startsQuote = false ∧ ∀ k', k = ':' :: k' → Text.startsQuote k' = false

/-- A text without the beginning of a string, a comment or a named placeholder. -/
def Text.Inert (x : Text) : Prop :=
  ∀ c ∈ x, c ∉ openingSigns

/-- A text in which every string, quoted name and comment that begins also ends. -/
inductive Text.Closed : Text → Prop
  | nil : Closed []
  | sign {c : Char} {k : Text} : Text.isBlank c = true ∨ startsPlain (c :: k) = true →
      (c = '@' ∨ c = ':' → k.Unquoted) → Closed k → Closed (c :: k)
  | string {x k : Text} : IsString x k → Closed k → Closed (x ++ k)
  | comment {x k : Text} : IsBlockComment x → Closed k → Closed (x ++ k)
  | name {c q : Char} {y k : Text} : c = '@' ∨ c = ':' →
      (∀ k, quotedName? (q :: (y ++ [q] ++ k)) =
        some { kind := .placeholder, size := y.length + 3, key := some y }) →
      Closed k → Closed (c :: q :: (y ++ [q] ++ k))

/-! ### What the rules take -/

lemma inert_of_words {x : Text} (h : ∀ c ∈ x, Text.isWordChar c = true ∨ Text.isBlank c = true ∨ c = '.') :
    x.Inert := by
  have hsigns : ∀ c ∈ openingSigns, Text.isWordChar c = false ∧ Text.isBlank c = false ∧ c ≠ '.' :=
    List.all_iff_forall_prop.mp (by decide)
  intro c hc hsign
  obtain ⟨hword, hblank, hdot⟩ := hsigns c hsign
  rcases h c hc with h | h | h
  · simp [hword] at h
  · simp [hblank] at h
  · exact hdot h

section

variable {t : Text} {n : Nat}

lemma digitsSize?_chars {p : Char → Bool} (hp : ∀ c, p c = true → Text.isWordChar c = true)
    (h : digitsSize? p t = some n) : ∀ c ∈ t.take n, Text.isWordChar c = true := by
  obtain ⟨ds, r, rfl, rfl, -, hds, -⟩ := digitsSize?_spec h
  intro c hc
  rw [List.take_left] at hc
  exact hp c (hds c hc)

lemma decimalSize?_chars (h : decimalSize? t = some n) :
    ∀ c ∈ t.take n, Text.isWordChar c = true ∨ c = '.' := by
  rw [decimalSize?_eq] at h
  split at h
  · simp at h
  · split at h
    · next m hm =>
      rw [fractionSize?.eq_def] at hm
      split at hm
      · next rest hd =>
        obtain ⟨es, r, rfl, rfl, -, hes, -⟩ := digitsSize?_spec hm
        have ht : t = t.takeWhile Char.isDigit ++ '.' :: es ++ r := by
          rw [List.append_assoc, List.cons_append, ← hd]
          exact (List.prefix_iff_eq_append.mp (List.takeWhile_prefix _)).symm
        have hn : n = (t.takeWhile Char.isDigit ++ '.' :: es).length := by
          rw [List.length_append, List.length_cons, ← Option.some.inj h]
          omega
        intro c hc
        rw [hn, ht, List.take_left' (by rw [← ht])] at hc
        rcases List.mem_append.mp hc with hc | hc
        · exact .inl (isWordChar_of_isDigit (List.all_eq_true.mp List.all_takeWhile c hc))
        · rcases List.mem_cons.mp hc with rfl | hc
          · exact .inr rfl
          · exact .inl (isWordChar_of_isDigit (hes c hc))
      · simp at hm
    · exact fun c hc => .inl (digitsSize?_chars (fun _ => isWordChar_of_isDigit) h c hc)

lemma basedSize?_chars (h : basedSize? t = some n) : ∀ c ∈ t.take n, Text.isWordChar c = true := by
  match t with
  | [] | [_] => simp [basedSize?.eq_def] at h
  | c :: d :: t =>
    have hdigits : ∀ p : Char → Bool, (∀ c, p c = true → Text.isWordChar c = true) →
        Text.isWordChar c = true → Text.isWordChar d = true →
        (digitsSize? p t).map (· + 2) = some n → ∀ a ∈ (c :: d :: t).take n, Text.isWordChar a = true := by
      intro p hp hc hd hmap a ha
      obtain ⟨m, hm, rfl⟩ := Option.map_eq_some_iff.mp hmap
      simp only [List.take_succ_cons, List.mem_cons] at ha
      rcases ha with rfl | rfl | ha
      · exact hc
      · exact hd
      · exact digitsSize?_chars hp hm a ha
    rw [basedSize?_cons] at h
    split at h
    · next hc =>
      obtain ⟨rfl, rfl⟩ := hc
      exact hdigits _ (fun _ => isWordChar_of_isHexDigit) (by decide) (by decide) h
    · split at h
      · next hc =>
        obtain ⟨rfl, rfl⟩ := hc
        exact hdigits _ (fun _ => isWordChar_of_isBinaryDigit) (by decide) (by decide) h
      · simp at h

lemma numberSize?_chars (h : numberSize? t = some n) :
    ∀ c ∈ (t.take n).tail, Text.isWordChar c = true ∨ c = '.' := by
  cases t with
  | nil => simp
  | cons c t =>
    rw [numberSize?_cons, Option.or_eq_some_iff] at h
    rcases h with hb | ⟨-, hd⟩
    · exact fun a ha => .inl (basedSize?_chars hb a (List.mem_of_mem_tail ha))
    · split at hd
      · obtain ⟨m, hm, rfl⟩ := Option.map_eq_some_iff.mp hd
        exact decimalSize?_chars hm
      · exact fun a ha => decimalSize?_chars hd a (List.mem_of_mem_tail ha)

end

/-- What a rule takes is inert behind its first character, but for two colons and for quoted names. -/
lemma Rule.inert {ctx : Context} {c : Char} {y s : Text} {kind : Kind} (h : Rule ctx (c :: y) s kind) :
    y.Inert ∨ c :: y = [':', ':'] ∨ ∃ q z, (c = '@' ∨ c = ':') ∧ y = q :: (z ++ [q]) ∧
      ∀ k, quotedName? (q :: (z ++ [q] ++ k)) =
        some { kind := .placeholder, size := z.length + 3, key := some z } := by
  generalize hx : c :: y = x at h
  cases h with
  | opening hx' | closing hx' =>
    obtain ⟨-, rfl⟩ := List.cons.inj (hx.trans hx')
    exact .inl (by simp [Text.Inert])
  | index ds hx' hds =>
    obtain ⟨-, rfl⟩ := List.cons.inj (hx.trans hx')
    refine .inl (inert_of_words fun a ha => ?_)
    rw [← hds] at ha
    exact .inl (isWordChar_of_isDigitSign (List.all_eq_true.mp List.all_takeWhile a ha))
  | quotedName c' q z hc hq hx' hk =>
    obtain ⟨rfl, rfl⟩ := List.cons.inj (hx.trans hx')
    exact .inr (.inr ⟨q, z, hc, rfl, hk⟩)
  | bareName c' z hc hx' hz hword hs =>
    obtain ⟨-, rfl⟩ := List.cons.inj (hx.trans hx')
    exact .inl (inert_of_words fun a ha => .inl (hword a ha))
  | number hn =>
    have hchars := numberSize?_chars hn
    rw [List.take_left, ← hx] at hchars
    exact .inl (inert_of_words fun a ha => (hchars a ha).imp_right .inr)
  | keyword role ws hdot hw hnum hmem hn =>
    have hall := (phraseSize?_shape (Dialect.standard_spelt hmem) hn).1
    rw [← hx, List.all_eq_true] at hall
    refine .inl (inert_of_words fun a ha => ?_)
    have ha' := hall a (List.mem_cons_of_mem _ ha)
    rw [Bool.or_eq_true] at ha'
    exact ha'.imp_right .inl
  | word hne hword =>
    exact .inl (inert_of_words fun a ha => .inl (hword a (hx ▸ List.mem_cons_of_mem _ ha)))
  | operator hne hw hhead hnamed hs =>
    have hlong : ∀ op ∈ longOperators,
        (op.tail.all fun a => decide (a ∉ openingSigns)) = true ∨ op = [':', ':'] := by decide
    subst hx
    rcases operator_text hs with hmem | hone
    · exact (hlong _ hmem).imp List.all_iff_forall_prop.mp .inl
    · obtain rfl : y = [] := List.length_eq_zero_iff.mp (by simpa using hone)
      exact .inl (by simp [Text.Inert])

/-! ### Closed texts can be read -/

lemma IsString.tail {x s : Text} (h : IsString ('N' :: x) s) : IsString x s := by
  obtain ⟨opener, inner, hx, hmem, hsize, -⟩ := h
  have hquotes : ∀ q ∈ Dialect.standard.quotes, q.head? = some 'N' → q = ['N', '\x27'] := by decide
  have hne : opener ≠ [] := Dialect.standard_substantial.quotes _ hmem
  obtain ⟨c, r, rfl⟩ := List.exists_cons_of_ne_nil hne
  obtain ⟨rfl, rfl⟩ := List.cons.inj hx
  obtain ⟨-, rfl⟩ := List.cons.inj (hquotes _ hmem rfl)
  refine ⟨['\x27'], inner, rfl, by decide, hsize, fun ctx k => ?_⟩
  change SqlLayout.lexeme Dialect.standard.lexicon ctx ('\x27' :: (inner ++ k)) = _
  rw [lexeme_cons, if_neg (by decide), if_neg (by simp), if_neg (by simp)]
  rfl

lemma IsString.head {x s : Text} (h : IsString x s) :
    ∃ c r, x = c :: r ∧ (c = 'N' ∨ c ∈ openingSigns ∧ c ≠ ':') := by
  obtain ⟨opener, inner, rfl, hmem, -⟩ := h
  have hquotes : ∀ q ∈ Dialect.standard.quotes, q ≠ [] ∧
      (q.head?.all fun c => decide (c = 'N' ∨ c ∈ openingSigns ∧ c ≠ ':')) = true := by decide
  obtain ⟨hne, hhead⟩ := hquotes opener hmem
  obtain ⟨c, r, rfl⟩ := List.exists_cons_of_ne_nil hne
  exact ⟨c, r ++ inner, rfl, of_decide_eq_true hhead⟩

lemma startsQuote_of_quotedName? {t : Text} {l : Lexeme} (h : quotedName? t = some l) :
    t.startsQuote = true := by
  cases t with
  | nil => simp [quotedName?] at h
  | cons q r =>
    rw [quotedName?] at h
    split at h
    · next hq => simpa [Text.startsQuote, or_assoc] using hq
    · simp at h

namespace Text.Closed

variable {k : Text}

lemma of_cons {c : Char} (h : Closed (c :: k)) (hc : c ∉ openingSigns) : Closed k := by
  generalize ht : c :: k = t at h
  cases h with
  | nil => simp at ht
  | sign _ _ hk =>
    obtain ⟨-, rfl⟩ := List.cons.inj ht
    exact hk
  | @string x k' hx hk =>
    obtain ⟨d, r, rfl, hd⟩ := hx.head
    obtain ⟨rfl, rfl⟩ := List.cons.inj ht
    obtain rfl := hd.resolve_right fun h => hc h.1
    exact .string hx.tail hk
  | comment hx hk =>
    obtain ⟨body, rfl, -⟩ := hx
    obtain ⟨rfl, -⟩ := List.cons.inj ht
    exact absurd (by decide) hc
  | name hd _ _ =>
    obtain ⟨rfl, -⟩ := List.cons.inj ht
    rcases hd with rfl | rfl <;> exact absurd (by decide) hc

lemma of_append {x : Text} (h : Closed (x ++ k)) (hx : x.Inert) : Closed k := by
  induction x with
  | nil => exact h
  | cons c x ih =>
    apply ih
    · exact of_cons h (hx c (by simp))
    · exact fun d hd => hx d (List.mem_cons_of_mem _ hd)

lemma of_colon (h : Closed (':' :: k)) (hk : k.startsQuote = false) : Closed k := by
  generalize ht : ':' :: k = t at h
  cases h with
  | nil => simp at ht
  | sign _ _ hk =>
    obtain ⟨-, rfl⟩ := List.cons.inj ht
    exact hk
  | string hx _ =>
    obtain ⟨d, r, rfl, hd⟩ := hx.head
    obtain ⟨rfl, -⟩ := List.cons.inj ht
    simp at hd
  | comment hx hk =>
    obtain ⟨body, rfl, -⟩ := hx
    obtain ⟨hd, -⟩ := List.cons.inj ht
    exact absurd hd (by decide)
  | name hd hq _ =>
    obtain ⟨-, rfl⟩ := List.cons.inj ht
    rw [startsQuote_of_quotedName? (hq _)] at hk
    simp at hk

end Text.Closed

/-- What stands at the head of a closed text is read, and the text behind it is closed. -/
lemma Text.Closed.exists_lexed {t : Text} (h : Closed t) (ht : t ≠ []) (ctx : Context) :
    ∃ l x k, t = x ++ k ∧ Lexed ctx x k l ∧ Closed k := by
  cases h with
  | nil => exact absurd rfl ht
  | @sign c k hc hname hk =>
    rcases lexeme_cases Dialect.standard_substantial ctx ht with
      ⟨fault, hf⟩ | ⟨l, x, rest, hx, hl, hsize, hne⟩
    · rcases hc with hb | hp
      · rw [lexeme_cons, if_pos hb] at hf
        simp at hf
      · rw [lexeme_of_startsPlain hp] at hf
        simp at hf
    · obtain ⟨d, y, rfl⟩ := List.exists_cons_of_ne_nil hne
      obtain ⟨rfl, rfl⟩ := List.cons.inj hx
      have hlexed : Lexed ctx (c :: y) rest l := ⟨hl, hsize, hne⟩
      refine ⟨l, c :: y, rest, rfl, hlexed, ?_⟩
      rcases hc with hb | hp
      · rw [lexeme_cons, if_pos hb] at hl
        have hall := hlexed.isAllBlank (by rw [← Except.ok.inj hl])
        rw [isAllBlank, List.all_eq_true] at hall
        exact hk.of_append (inert_of_words fun a ha => .inr (.inl (hall a (List.mem_cons_of_mem _ ha))))
      · rw [lexeme_of_startsPlain hp] at hl
        have hrule := Rule.of_plain hp (Except.ok.inj hl).symm hsize hne
        rcases hrule.inert with hy | hy | ⟨q, z, hsign, rfl, hq⟩
        · exact hk.of_append hy
        · obtain ⟨rfl, rfl⟩ := List.cons.inj hy
          exact hk.of_colon ((hname (.inr rfl)).2 rest rfl)
        · exact absurd (startsQuote_of_quotedName? (hq rest)) (by simpa using (hname hsign).1)
  | @string x k hx hk => exact ⟨_, x, k, rfl, ⟨hx.lexeme ctx, rfl, hx.solid.ne_nil⟩, hk⟩
  | @comment x k hx hk => exact ⟨_, x, k, rfl, ⟨hx.lexeme ctx k, rfl, hx.solid.ne_nil⟩, hk⟩
  | @name c q y k hc hq hk =>
    refine ⟨{ kind := .placeholder, size := y.length + 3, key := some y }, c :: q :: (y ++ [q]), k, rfl,
      ⟨?_, by simp, by simp⟩, hk⟩
    have hp : startsPlain (c :: q :: (y ++ [q] ++ k)) = true := by
      rw [startsPlain_cons, openerAt?_eq_none]
      rcases hc with rfl | rfl <;> simp <;> decide
    rw [List.cons_append, List.cons_append, lexeme_of_startsPlain hp, plain_named _ _ hc, hq k]
    rfl

lemma Text.Closed.exists_reads {t : Text} (h : Closed t) (ctx : Context) (p : Position) :
    ∃ ts, Reads Dialect.standard.lexicon ctx p t ts := by
  induction hn : t.length using Nat.strongRecOn generalizing t ctx p with
  | _ n ih =>
    by_cases ht : t = []
    · subst ht
      exact ⟨[], .nil ctx p⟩
    · obtain ⟨l, x, k, rfl, hlexed, hk⟩ := h.exists_lexed ht ctx
      have hpos := List.length_pos_iff.mpr hlexed.ne_nil
      rw [List.length_append] at hn
      obtain ⟨ts, hts⟩ := ih k.length (by omega) hk (ctx.next l.kind x) (p.advance x) rfl
      exact ⟨_, .cons hlexed.eq hlexed.size hlexed.ne_nil hts⟩

/-! ### Pages are closed -/

lemma Text.Closed.inert_append {y k : Text} (hk : Closed k) (hy : y.Inert)
    (hlast : y.getLast? = some 'N' → k.head? ≠ some '\x27') : Closed (y ++ k) := by
  induction y with
  | nil => exact hk
  | cons c y ih =>
    have hc := hy c (by simp)
    have hrest : Inert y := fun d hd => hy d (List.mem_cons_of_mem _ hd)
    have hnext : ¬(c = 'N' ∧ (y ++ k).head? = some '\x27') := by
      rintro ⟨rfl, hquote⟩
      cases y with
      | nil => exact hlast rfl hquote
      | cons d y =>
        obtain rfl : d = '\x27' := by simpa using hquote
        exact absurd (by decide) (hrest '\x27' (by simp))
    simp only [openingSigns, List.mem_cons, List.not_mem_nil, or_false, not_or] at hc
    refine .sign ?_ (by simp [hc]) (ih hrest ?_)
    · by_cases hb : isBlank c = true
      · exact .inl hb
      · right
        rw [startsPlain_cons, openerAt?_eq_none]
        exact ⟨by simpa using hb, by simp [hc], by simp [hc], hnext, by simp [hc]⟩
    · intro h
      apply hlast
      rw [List.getLast?_cons, h]
      rfl

lemma Text.startsQuote_of_isSeam {k : Text} (h : k.isSeam = true) : k.startsQuote = false := by
  cases k with
  | nil => rfl
  | cons c k =>
    have hquotes : ∀ q ∈ ['\x27', '\x22', '\x60'], isBlank q = false ∧ q ∉ seamSigns :=
      List.all_iff_forall_prop.mp (by decide)
    cases hq : startsQuote (c :: k) with
    | false => rfl
    | true =>
      have hmem : c ∈ ['\x27', '\x22', '\x60'] := by simpa [startsQuote, or_assoc] using hq
      obtain ⟨hb, hs⟩ := hquotes c hmem
      rcases isSeam_head h (c := c) rfl with h | h
      · simp [hb] at h
      · exact absurd h hs

lemma not_string_of_seam {x k : Text} (hseam : x.isLoose = true ∨ k.isSeam = true)
    (hx : x.getLast? = some 'N') : k.head? ≠ some '\x27' := by
  rcases hseam with hl | hk
  · simp only [Text.isLoose, Bool.or_eq_true, beq_iff_eq] at hl
    rcases hl with ((rfl | rfl) | rfl) | hl
    · simp at hx
    · simp at hx
    · simp at hx
    · obtain ⟨y, rfl⟩ := List.getLast?_eq_some_iff.mp hx
      have hupper : Text.upper (y ++ ['N']) = Text.upper y ++ ['N'] := by
        rw [Text.upper, List.flatMap_append]
        rfl
      have hlast := congrArg List.getLast? (hupper.symm.trans hl)
      simp at hlast
  · intro hquote
    have hstart := Text.startsQuote_of_isSeam hk
    cases k with
    | nil => simp at hquote
    | cons c k =>
      obtain rfl : c = '\x27' := by simpa using hquote
      simp [Text.startsQuote] at hstart

lemma Text.Inert.unquoted {y k : Text} (hy : y.Inert) (hne : y ≠ []) : Text.Unquoted (y ++ k) := by
  obtain ⟨c, y, rfl⟩ := List.exists_cons_of_ne_nil hne
  have hc := hy c (by simp)
  simp only [openingSigns, List.mem_cons, List.not_mem_nil, or_false, not_or] at hc
  refine ⟨by simp [Text.startsQuote, hc], fun k' h => ?_⟩
  exact absurd (List.cons.inj h).1 hc.2.2.2.2.2.2.2.2

lemma Piece.Sound.inert_of_keyword {p : Piece} {role : Role} (h : p.Sound) (hk : p.kind = .keyword role) :
    p.text.Inert := by
  rcases h.origin with ⟨hkind, -⟩ | ⟨ctx, t, ts, ht, hb, hc, hkind, htext⟩
  · simp [hk] at hkind
  have hkt : t.kind = .keyword role := hkind.symm.trans hk
  rcases ht.content hb hc with ⟨hq, -⟩ | ⟨-, hr⟩
  · simp [hkt] at hq
  have hwords := Text.all_collapse (hr.words_of_keyword hkt)
  rw [List.all_eq_true] at hwords
  have hwritten : p.text = Text.collapse t.text := by rw [htext, Token.written, hkt]
  rw [hwritten]
  apply inert_of_words
  intro c hmem
  have hword := hwords c hmem
  rw [Bool.or_eq_true] at hword
  exact hword.imp_right .inl

section

variable {p : Piece} {ps : List Piece} (hp : p.Sound) (hps : ∀ q ∈ ps, q.Sound)
  (hchain : (p :: ps).IsChain Seam)
include hp hps hchain

lemma unquoted_of_chain (hl : p.text.isLoose = false) : (joined ps).Unquoted := by
  have hseam := (loose_or_seam_of_chain hp hps hchain).resolve_left (by simp [hl])
  refine ⟨Text.startsQuote_of_isSeam hseam, fun k' hk' => ?_⟩
  cases ps with
  | nil => simp at hk'
  | cons q rest =>
    have hq := hps q (by simp)
    by_cases hgap : q.gap = []
    · have hclings := ((List.isChain_cons_cons.mp hchain).1 hgap).resolve_left
        fun h => by simp [h.isLoose hp] at hl
      obtain ⟨c, r, hc, -, -, hone⟩ := hclings.head hq
      rw [joined_cons, hgap, hc] at hk'
      obtain rfl : c = ':' := (List.cons.inj hk').1
      have hcolon := hone rfl
      obtain ⟨-, rfl⟩ := List.cons.inj (hc.symm.trans hcolon)
      obtain rfl : joined rest = k' := (List.cons.inj hk').2
      have hnext := loose_or_seam_of_chain hq (fun r hr => hps r (List.mem_cons_of_mem _ hr)) hchain.tail
      rw [hcolon] at hnext
      exact Text.startsQuote_of_isSeam (hnext.resolve_left (by decide))
    · obtain ⟨c, k, hk, hc⟩ := joined_cons_of_gap hq hgap rest
      rw [hk] at hk'
      obtain ⟨rfl, -⟩ := List.cons.inj hk'
      exact absurd hc (by decide)

lemma closed_text_append (hk : (joined ps).Closed) : (p.text ++ joined ps).Closed := by
  have hseam := loose_or_seam_of_chain hp hps hchain
  by_cases hword : ∃ role, p.kind = .keyword role
  · obtain ⟨role, hkind⟩ := hword
    exact hk.inert_append (hp.inert_of_keyword hkind) (not_string_of_seam hseam)
  rcases hp.origin with ⟨-, hblock⟩ | ⟨_, t, _, _, _, hc, hkind, _⟩
  · exact .comment hblock hk
  rcases hp.rule (by rwa [hkind]) (by simpa using hword) with ⟨-, s, hs⟩ | ⟨ctx, s, hplain, hrule⟩
  · exact .string (hs.of_seam hseam) hk
  have hplain' := startsPlain_of_seam hseam hplain hp.solid.ne_nil
  have hnext := unquoted_of_chain hp hps hchain
  have hlast := not_string_of_seam hseam
  obtain ⟨c, y, hx⟩ := List.exists_cons_of_ne_nil hp.solid.ne_nil
  rw [hx] at hrule hplain' hnext hlast ⊢
  -- Only two colons and a quoted name have a character behind the first that could open something.
  rcases hrule.inert with hy | hy | ⟨q, z, hsign, rfl, hq⟩
  · have hclosed := hk.inert_append hy fun h => hlast (by simp [List.getLast?_cons, h])
    refine .sign (.inr hplain') (fun hsign => ?_) hclosed
    by_cases hne : y = []
    · subst hne
      exact hnext (by rcases hsign with rfl | rfl <;> decide)
    · exact hy.unquoted hne
  · obtain ⟨rfl, rfl⟩ := List.cons.inj hy
    have hnext := hnext (by decide)
    have hcolon : startsPlain (':' :: joined ps) = true := by
      rw [startsPlain_cons, openerAt?_eq_none]
      simp
      decide
    refine .sign (.inr hplain') (fun _ => ⟨rfl, ?_⟩) (.sign (.inr hcolon) (fun _ => hnext) hk)
    intro k' hk'
    obtain rfl := (List.cons.inj hk').2
    exact hnext.1
  · have hname := Text.Closed.name hsign hq hk
    simpa using hname

end

/-- The text of pieces is closed. -/
lemma closed_joined {ps : List Piece} (hps : ∀ q ∈ ps, q.Sound) (hchain : ps.IsChain Seam) :
    (joined ps).Closed := by
  induction ps with
  | nil => exact .nil
  | cons p ps ih =>
    have hp := hps p (by simp)
    have hrest : ∀ q ∈ ps, q.Sound := fun q hq => hps q (List.mem_cons_of_mem _ hq)
    have hclosed := closed_text_append hp hrest hchain (ih hrest hchain.tail)
    have hblank := hp.blank
    rw [Text.isAllBlank, List.all_eq_true] at hblank
    rw [joined_cons]
    refine hclosed.inert_append (inert_of_words fun c hc => .inr (.inl (hblank c hc))) fun h => ?_
    exact absurd (hblank 'N' (List.mem_of_getLast? h)) (by decide)

lemma exists_tokenize_formatWith {o : Options} (hdialect : o.dialect = .standard)
    (hbind : o.bindings = .none) (hunit : o.unit.isAllBlank = true) {query : Text} {ts : List Token}
    (hts : tokenize .standard query = .ok ts) :
    ∃ page us, formatWith o query = .ok page ∧ tokenize .standard page = .ok us := by
  have hreads := (tokensFrom_eq_ok_iff Dialect.standard_substantial).mp hts
  obtain ⟨s, hrun, hset⟩ := Draft.run_composes hunit hbind hreads {} 0 (by simp)
  have hsound := hset.typeset.sound
  have hclosed := closed_joined (sound_flush hsound) (isChain_flush hset.chain)
  obtain ⟨us, hus⟩ := hclosed.exists_reads .start .start
  refine ⟨s.text, us, formatWith_eq_ok (hdialect ▸ hts) (by rw [layout, hrun]), ?_⟩
  rw [Draft.text_of_body hsound hset.body]
  exact tokensFrom_of_reads hus

lemma Settings.optionsIn_eq_ok {s : Settings} {dialect : Text} {o : Options}
    (h : s.optionsIn dialect = .ok o) :
    o.dialect = .standard ∧ o.bindings = s.bindings ∧ o.unit = s.unit := by
  rw [optionsIn] at h
  split at h
  · simp at h
  · next d hd =>
    have hstandard : d = .standard := by simpa [Dialect.known] using List.mem_of_find?_eq_some hd
    rw [check] at h
    split at h
    · simp at h
    · next o' ho =>
      obtain rfl := Except.ok.inj h
      split at ho
      · simp at ho
      · split at ho
        · simp at ho
        · split at ho
          · simp at ho
          · obtain rfl := Except.ok.inj ho
            exact ⟨hstandard, rfl, rfl⟩

/-- Formatting a query that can be read never fails, however often its text is formatted again, and
every text on the way can be read. -/
theorem formatTimes_succeeds (dialect : Text) (s : Settings) (o : Options)
    (hs : s.optionsIn dialect = .ok o) (hbind : s.bindings = .none) (hunit : s.unit.isAllBlank = true)
    (query : Text) (ts : List Token) (hts : tokenize .standard query = .ok ts) (n : Nat) :
    ∃ texts, formatTimes dialect s n query = .ok texts ∧ texts.length = n ∧
      ∀ text ∈ texts, ∃ us, tokenize .standard text = .ok us := by
  obtain ⟨hdialect, hbindings, hunits⟩ := Settings.optionsIn_eq_ok hs
  induction n generalizing query ts with
  | zero => exact ⟨[], rfl, rfl, by simp⟩
  | succ n ih =>
    obtain ⟨page, us, hpage, hus⟩ := exists_tokenize_formatWith hdialect (hbindings.trans hbind)
      (hunits ▸ hunit) hts
    obtain ⟨texts, htexts, hlength, hall⟩ := ih page us hus
    have hformat : format dialect s query = .ok page := by simp only [format, hs, hpage]
    refine ⟨page :: texts, ?_, by simp [hlength], List.forall_mem_cons.mpr ⟨⟨us, hus⟩, hall⟩⟩
    rw [formatTimes, hformat]
    simp only [htexts]

theorem formatTimes_succeeds_three :
    ∃ texts, formatTimes Dialect.standard.name {} 3 ['?', '\x27', ',', '\x27', '('] = .ok texts ∧
      texts.length = 3 ∧ ∀ text ∈ texts, ∃ us, tokenize .standard text = .ok us := by
  have hreads : ∃ ts, Reads Dialect.standard.lexicon .start .start
      (['?'] ++ (['\x27', ',', '\x27'] ++ (['('] ++ []))) ts :=
    ⟨_, .cons rfl rfl (by simp) (.cons rfl rfl (by simp) (.cons rfl rfl (by simp) (.nil _ _)))⟩
  obtain ⟨ts, hts⟩ := hreads
  exact formatTimes_succeeds _ {} {} rfl rfl rfl _ ts (tokensFrom_of_reads hts) 3

end SqlLayout
