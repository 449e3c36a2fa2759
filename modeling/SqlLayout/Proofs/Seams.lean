import SqlLayout.Proofs.Typesetting

/-!
# Seams between pieces

Two neighbouring pieces of a page collide if they are read as something else. Pieces that do not
collide are not read on into what follows them.
-/

namespace SqlLayout

open Lexeme

/-- Two neighbouring pieces, with others behind them, are read as something else. -/
inductive Collision (p q : Piece) (rest : List Piece) : Prop
  /-- A word runs on. -/
  | words : q.gap = [] → p.text.runsOn = true → q.text.startsWord = true → Collision p q rest
  /-- Two colons make one operator. -/
  | colons : q.gap = [] → p.text = [':'] → q.text = [':'] → Collision p q rest
  /-- A whole number, a dot and digits make a number with a fraction. -/
  | fraction : q.gap = [] → p.text.isWhole = true → q.text = ['.'] →
      (digitsSize? Char.isDigit (joined rest)).isSome = true → Collision p q rest
  /-- Directly behind a dot, a keyword of several words is read word by word. -/
  | splitKeyword (role : Role) : q.gap = [] → p.text = ['.'] → q.kind = .keyword role →
      ' ' ∈ q.text → Collision p q rest
  /-- Directly behind a dot, a keyword or an opening word is a name, so that a minus sign behind it
  subtracts. -/
  | subtraction (r : Piece) : q.gap = [] → p.text = ['.'] → q.text.startsWord = true →
      (q.kind = .opening ∨ ∃ role, q.kind = .keyword role) → r ∈ rest.head? → r.kind = .number →
      r.text.head? = some '-' → Collision p q rest
  /-- A name that was wrapped away from its dot begins a keyword of another size. -/
  | wrappedName (l : Lexeme) : q.gap ≠ [] → p.text = ['.'] → q.kind = .word →
      keyword? Dialect.standard.lexicon .start (q.text ++ joined rest) = some l →
      l.size ≠ q.text.length → Collision p q rest

instance (kind : Kind) : Decidable (∃ role, kind = .keyword role) :=
  decidable_of_iff (∃ role ∈ [Role.clause, .indented, .breaking, .plain], kind = .keyword role)
    ⟨fun ⟨role, _, h⟩ => ⟨role, h⟩, fun ⟨role, h⟩ => ⟨role, by cases role <;> simp, h⟩⟩

lemma collision_iff {p q : Piece} {rest : List Piece} : Collision p q rest ↔
    (q.gap = [] ∧ (p.text.runsOn = true ∧ q.text.startsWord = true ∨
      p.text = [':'] ∧ q.text = [':'] ∨
      p.text.isWhole = true ∧ q.text = ['.'] ∧
        (digitsSize? Char.isDigit (joined rest)).isSome = true ∨
      p.text = ['.'] ∧ (∃ role, q.kind = .keyword role) ∧ ' ' ∈ q.text ∨
      p.text = ['.'] ∧ q.text.startsWord = true ∧ (q.kind = .opening ∨ ∃ role, q.kind = .keyword role) ∧
        ∃ r ∈ rest.head?, r.kind = .number ∧ r.text.head? = some '-')) ∨
    (q.gap ≠ [] ∧ p.text = ['.'] ∧ q.kind = .word ∧
      ∃ l ∈ keyword? Dialect.standard.lexicon .start (q.text ++ joined rest),
        l.size ≠ q.text.length) := by
  constructor
  · intro h
    cases h with
    | words hg hp hq => exact .inl ⟨hg, .inl ⟨hp, hq⟩⟩
    | colons hg hp hq => exact .inl ⟨hg, .inr (.inl ⟨hp, hq⟩)⟩
    | fraction hg hp hq hr => exact .inl ⟨hg, .inr (.inr (.inl ⟨hp, hq, hr⟩))⟩
    | splitKeyword role hg hp hk hq => exact .inl ⟨hg, .inr (.inr (.inr (.inl ⟨hp, ⟨role, hk⟩, hq⟩)))⟩
    | subtraction r hg hp hq hk hr hn hm =>
      exact .inl ⟨hg, .inr (.inr (.inr (.inr ⟨hp, hq, hk, r, hr, hn, hm⟩)))⟩
    | wrappedName l hg hp hk hl hs => exact .inr ⟨hg, hp, hk, l, hl, hs⟩
  · rintro (⟨hg, ⟨hp, hq⟩ | ⟨hp, hq⟩ | ⟨hp, hq, hr⟩ | ⟨hp, ⟨role, hk⟩, hq⟩ | ⟨hp, hq, hk, r, hr, hn, hm⟩⟩ |
      ⟨hg, hp, hk, l, hl, hs⟩)
    · exact .words hg hp hq
    · exact .colons hg hp hq
    · exact .fraction hg hp hq hr
    · exact .splitKeyword role hg hp hk hq
    · exact .subtraction r hg hp hq hk hr hn hm
    · exact .wrappedName l hg hp hk hl hs

instance (p q : Piece) (rest : List Piece) : Decidable (Collision p q rest) :=
  decidable_of_iff _ collision_iff.symm

def Legible : List Piece → Prop
  | p :: q :: rest => ¬Collision p q rest ∧ Legible (q :: rest)
  | _ => True

instance decidableLegible : (ps : List Piece) → Decidable (Legible ps)
  | [] | [_] => .isTrue trivial
  | p :: q :: rest =>
    have := decidableLegible (q :: rest)
    inferInstanceAs (Decidable (¬Collision p q rest ∧ Legible (q :: rest)))

lemma Legible.tail {p : Piece} {ps : List Piece} (h : Legible (p :: ps)) : Legible ps := by
  cases ps with
  | nil => trivial
  | cons q rest => exact h.2

/-! ### Pieces of tokens -/

namespace Rule

variable {ctx : Context} {x s : Text} {kind : Kind}

lemma bracket_text (h : Rule ctx x s kind) :
    (kind = .opening → x = ['('] ∨ x.upper = ['C', 'A', 'S', 'E']) ∧
    (kind = .closing → x = [')'] ∨ x.upper = ['E', 'N', 'D']) := by
  cases h
  case opening hx => simp [hx]
  case closing hx => simp [hx]
  case word =>
    rcases wordKind_cases ctx.afterDot x with h | ⟨-, h, hx⟩ | ⟨-, h, hx⟩ <;> simp [h]
    · exact .inr hx
    · exact .inr hx
  all_goals simp

lemma wordKind_ne_keyword (afterDot : Bool) (x : Text) (role : Role) :
    wordKind afterDot x ≠ .keyword role := by
  rcases wordKind_cases afterDot x with h | ⟨-, h, -⟩ | ⟨-, h, -⟩ <;> simp [h]

lemma keyword_text {role : Role} (h : Rule ctx x s kind) (hk : kind = .keyword role) :
    ∃ c d y, x = c :: d :: y ∧ Text.isWordChar c = true ∧ Text.isWordChar d = true ∧
      c.isDigit = false := by
  cases h with
  | keyword role' ws _ _ _ hmem hn => exact keyword_head hmem hn
  | word => exact absurd hk (wordKind_ne_keyword _ _ _)
  | _ => simp at hk

lemma signed_text (h : Rule ctx x s kind) (hk : kind = .number) (hx : x.head? = some '-') :
    ∃ d y, x = '-' :: d :: y ∧ d.isDigit = true := by
  cases h with
  | number hn =>
    obtain ⟨ds, r, ht, hlen, hds, -, -⟩ := numberSize?_spec hn
    obtain ⟨rfl, -⟩ := List.append_inj ht hlen.symm
    rcases hds with hds | ⟨es, rfl, hes⟩
    · cases x with
      | nil => simp at hx
      | cons c y =>
        obtain rfl : c = '-' := by simpa using hx
        simp [startsDigit] at hds
    · cases es with
      | nil => simp [startsDigit] at hes
      | cons d y => exact ⟨d, y, rfl, hes⟩
  | word => exact absurd hk (wordKind_ne_number _ _)
  | _ => simp at hk

lemma startsWord_of_word (h : Rule ctx x s kind) (hk : kind = .word) : x.startsWord = true := by
  cases h with
  | word hx hword =>
    obtain ⟨c, y, rfl⟩ := List.exists_cons_of_ne_nil hx
    exact hword c (by simp)
  | _ => simp at hk

end Rule

/-- A piece comes from a comment, or from a token that was read in some context. -/
structure Piece.Sound (p : Piece) : Prop where
  blank : p.gap.isAllBlank = true
  origin : (p.kind = .blockComment ∧ IsBlockComment p.text) ∨
    ∃ ctx t ts, Heads ctx t ts ∧ t.kind ≠ .blank ∧ t.kind.isComment = false ∧ p.kind = t.kind ∧
      p.text = t.written

namespace Piece

variable {p : Piece}

lemma Sound.solid (h : p.Sound) : p.text.Solid := by
  rcases h.origin with ⟨-, hb⟩ | ⟨ctx, t, ts, ⟨l, hl, hk⟩, hb, hc, -, htext⟩
  · exact hb.solid
  · have hsolid : t.text.Solid := hl.solid (by rwa [hk]) (by rwa [hk])
    rw [htext, Token.written]
    split
    · exact hsolid.collapse
    · exact hsolid

lemma written_of_not_keyword {t : Token} (h : ∀ role, t.kind ≠ .keyword role) :
    t.written = t.text := by
  rw [Token.written]
  split
  · next role hk => exact absurd hk (h role)
  · rfl

lemma Sound.rule (h : p.Sound) (hc : p.kind.isComment = false) (hk : ∀ role, p.kind ≠ .keyword role) :
    (p.kind = .quoted ∧ ∃ s, IsString p.text s) ∨
      ∃ ctx s, startsPlain (p.text ++ s) = true ∧ Rule ctx p.text s p.kind := by
  rcases h.origin with ⟨hkind, -⟩ | ⟨ctx, t, ts, ht, hb, hc', hkind, htext⟩
  · simp [hkind, Kind.isComment] at hc
  · rw [hkind] at hk ⊢
    rw [htext, written_of_not_keyword hk]
    rcases ht.content hb hc' with ⟨hq, hs⟩ | hr
    · exact .inl ⟨hq, _, hs⟩
    · exact .inr ⟨ctx, _, hr⟩

lemma Sound.opening (h : p.Sound) (hk : p.kind = .opening) :
    p.text = ['('] ∨ p.text.upper = ['C', 'A', 'S', 'E'] := by
  rcases h.rule (by simp [hk, Kind.isComment]) (by simp [hk]) with ⟨hq, -⟩ | ⟨ctx, s, -, hr⟩
  · simp [hk] at hq
  · exact hr.bracket_text.1 hk

lemma Sound.closing (h : p.Sound) (hk : p.kind = .closing) :
    p.text = [')'] ∨ p.text.upper = ['E', 'N', 'D'] := by
  rcases h.rule (by simp [hk, Kind.isComment]) (by simp [hk]) with ⟨hq, -⟩ | ⟨ctx, s, -, hr⟩
  · simp [hk] at hq
  · exact hr.bracket_text.2 hk

lemma Sound.signed (h : p.Sound) (hk : p.kind = .number) (hx : p.text.head? = some '-') :
    ∃ d y, p.text = '-' :: d :: y ∧ d.isDigit = true := by
  rcases h.rule (by simp [hk, Kind.isComment]) (by simp [hk]) with ⟨hq, -⟩ | ⟨ctx, s, -, hr⟩
  · simp [hk] at hq
  · exact hr.signed_text hk hx

lemma Sound.word (h : p.Sound) (hk : p.kind = .word) : p.text.startsWord = true := by
  rcases h.rule (by simp [hk, Kind.isComment]) (by simp [hk]) with ⟨hq, -⟩ | ⟨ctx, s, -, hr⟩
  · simp [hk] at hq
  · exact hr.startsWord_of_word hk

lemma Sound.keyword {role : Role} (h : p.Sound) (hk : p.kind = .keyword role) :
    ∃ c d y, p.text = c :: d :: y ∧ Text.isWordChar c = true ∧ Text.isWordChar d = true ∧
      c.isDigit = false := by
  rcases h.origin with ⟨hkind, -⟩ | ⟨ctx, t, ts, ht, hb, hc, hkind, htext⟩
  · simp [hk] at hkind
  · have hkt : t.kind = .keyword role := hkind.symm.trans hk
    rcases ht.content hb hc with ⟨hq, -⟩ | ⟨-, hr⟩
    · simp [hkt] at hq
    · obtain ⟨c, d, y, hx, hcw, hdw, hdigit⟩ := hr.keyword_text hkt
      refine ⟨c, d, Text.collapse y, ?_, hcw, hdw, hdigit⟩
      rw [htext, Token.written, hkt, hx]
      exact Text.collapse_append_of_solid (v := [c, d])
        (by simp [Text.not_isBlank_of_isWordChar hcw, Text.not_isBlank_of_isWordChar hdw]) y

lemma Sound.startsPlain (h : p.Sound) (hc : p.kind.isComment = false) (hq : p.kind ≠ .quoted)
    {k : Text} (hseam : p.text.isLoose = true ∨ k.isSeam = true) :
    SqlLayout.startsPlain (p.text ++ k) = true := by
  by_cases hk : ∃ role, p.kind = .keyword role
  · obtain ⟨role, hk⟩ := hk
    obtain ⟨c, d, y, hx, hcw, hdw, -⟩ := h.keyword hk
    rw [hx]
    exact startsPlain_of_word hcw hdw _
  · rcases h.rule hc (by simpa using hk) with ⟨hq', -⟩ | ⟨ctx, s, hp, -⟩
    · exact absurd hq' hq
    · exact startsPlain_of_seam hseam hp h.solid.ne_nil

lemma Loose.isLoose (hp : p.Sound) (h : p.Loose) : p.text.isLoose = true := by
  rw [Text.isLoose]
  rcases h with h | h
  · simp only [List.mem_cons, List.not_mem_nil, or_false] at h
    rcases h with h | h <;> simp [h]
  · rcases hp.opening h with h | h <;> simp [h]

lemma Clings.head {q : Piece} (hq : q.Sound) (h : q.Clings) :
    ∃ c r, q.text = c :: r ∧ c ∈ seamSigns ∧ (c = '.' → q.text = ['.']) ∧
      (c = ':' → q.text = [':']) := by
  rcases h with h | h | h
  · simp only [List.mem_cons, List.not_mem_nil, or_false] at h
    rcases h with h | h | h | h <;> exact ⟨_, _, h, by decide, by simp [h], by simp [h]⟩
  · rcases hq.opening h with h | h
    · exact ⟨_, _, h, by decide, by simp, by simp⟩
    · obtain ⟨c, r, hc, hletter, -⟩ := Text.head_of_upper (.inl rfl) h
      rcases hletter with rfl | rfl <;>
      exact ⟨_, r, hc, by decide, fun h => absurd h (by decide), fun h => absurd h (by decide)⟩
  · rcases hq.closing h with h | h
    · exact ⟨_, _, h, by decide, by simp, by simp⟩
    · obtain ⟨c, r, hc, hletter, -⟩ := Text.head_of_upper (.inr rfl) h
      rcases hletter with rfl | rfl <;>
      exact ⟨_, r, hc, by decide, fun h => absurd h (by decide), fun h => absurd h (by decide)⟩

end Piece

lemma not_isLoose_of_isWhole {x : Text} (h : x.isWhole = true) : x.isLoose = false := by
  cases hl : x.isLoose with
  | false => rfl
  | true =>
    simp only [Text.isLoose, Bool.or_eq_true, beq_iff_eq] at hl
    rcases hl with ((rfl | rfl) | rfl) | hl
    · exact absurd h (by decide)
    · exact absurd h (by decide)
    · exact absurd h (by decide)
    · obtain ⟨c, y, rfl, hc, -⟩ := Text.head_of_upper (.inl rfl) hl
      rcases hc with rfl | rfl <;> simp [Text.isWhole, Text.unsigned] at h

lemma fractionSize?_cons_of_ne {c : Char} (hc : c ≠ '.') (t : Text) : fractionSize? (c :: t) = none := by
  rw [fractionSize?.eq_def]
  split
  · next heq => exact absurd (List.cons.inj heq).1 hc
  · rfl

lemma joined_cons_of_gap {q : Piece} (hq : q.Sound) (hgap : q.gap ≠ []) (rest : List Piece) :
    ∃ c k, joined (q :: rest) = c :: k ∧ Text.isBlank c = true := by
  obtain ⟨c, g, hg⟩ := List.exists_cons_of_ne_nil hgap
  have hblank := hq.blank
  rw [hg, Text.isAllBlank, List.all_cons, Bool.and_eq_true] at hblank
  exact ⟨c, _, by rw [joined_cons, hg]; rfl, hblank.1⟩

section

variable {p : Piece} {ps : List Piece} (hp : p.Sound) (hps : ∀ q ∈ ps, q.Sound)
  (hchain : (p :: ps).IsChain Seam)
include hp hps hchain

lemma loose_or_seam_of_chain : p.text.isLoose = true ∨ (joined ps).isSeam = true := by
  cases ps with
  | nil => exact .inr rfl
  | cons q rest =>
    have hq := hps q (by simp)
    by_cases hgap : q.gap = []
    · refine ((List.isChain_cons_cons.mp hchain).1 hgap).imp (·.isLoose hp) fun h => ?_
      obtain ⟨c, r, hc, hsign, -⟩ := h.head hq
      simp [hgap, hc, Text.isSeam, hsign]
    · obtain ⟨c, k, hk, hc⟩ := joined_cons_of_gap hq hgap rest
      exact .inr (by simp [hk, Text.isSeam, hc])

/-- A piece is not read on into the pieces behind it, unless it collides with them. -/
lemma follows_of_legible (hleg : Legible (p :: ps)) : Follows p.text (joined ps) := by
  have hloose := loose_or_seam_of_chain hp hps hchain
  cases ps with
  | nil => exact { seam := hloose, word := fun _ => rfl, colon := by simp, fraction := fun _ => rfl }
  | cons q rest =>
    have hq := hps q (by simp)
    by_cases hgap : q.gap = []
    · have hjoined : joined (q :: rest) = q.text ++ joined rest := by simp [hgap]
      have hcling : p.text.isLoose = false → ∃ c r, q.text = c :: r ∧ c ∈ seamSigns ∧
          (c = '.' → q.text = ['.']) ∧ (c = ':' → q.text = [':']) := fun hl =>
        (((List.isChain_cons_cons.mp hchain).1 hgap).resolve_left
          fun h => by simp [h.isLoose hp] at hl).head hq
      rw [hjoined] at hloose ⊢
      refine ⟨hloose, fun hrun => ?_, fun hcolon hhead => ?_, fun hwhole => ?_⟩
      · rw [Text.startsWord_append hq.solid.ne_nil]
        cases hw : q.text.startsWord with
        | false => rfl
        | true => exact absurd (.words hgap hrun hw) hleg.1
      · obtain ⟨c, r, hc, -, -, hone⟩ := hcling (by rw [hcolon]; decide)
        obtain rfl : c = ':' := by simpa [hc] using hhead
        exact hleg.1 (.colons hgap hcolon (hone rfl))
      · obtain ⟨c, r, hc, -, hone, -⟩ := hcling (not_isLoose_of_isWhole hwhole)
        by_cases hdot : c = '.'
        · have hq' := hone hdot
          cases hd : digitsSize? Char.isDigit (joined rest) with
          | none => simpa [hq', fractionSize?] using hd
          | some m => exact absurd (.fraction hgap hwhole hq' (by simp [hd])) hleg.1
        · rw [hc]
          exact fractionSize?_cons_of_ne hdot _
    · obtain ⟨c, k, hk, hc⟩ := joined_cons_of_gap hq hgap rest
      have hne : ∀ d, Text.isBlank d = false → c ≠ d := by
        rintro d hd rfl
        simp [hc] at hd
      rw [hk] at hloose ⊢
      exact ⟨hloose, fun _ => Text.not_isWordChar_of_isBlank hc,
        fun _ hhead => hne ':' (by decide) (by simpa using hhead),
        fun _ => fractionSize?_cons_of_ne (hne '.' (by decide)) k⟩

end

lemma lexeme_mark {c : Char} (hc : c = ',' ∨ c = ';') (ctx : Context) (k : Text) :
    lexeme Dialect.standard.lexicon ctx (c :: k) = .ok { kind := .operator, size := 1 } := by
  have hink : Text.isBlank c = false ∧ Text.isWordChar c = false := by
    rcases hc with rfl | rfl <;> decide
  have hsigns : c ∉ headSigns := by rcases hc with rfl | rfl <;> decide
  have hheads : ∀ op ∈ longOperators, op ≠ [] ∧ op.head? ≠ some c := by
    rcases hc with rfl | rfl <;> decide
  have hp : startsPlain (c :: k) = true := by
    rw [startsPlain_cons, openerAt?_eq_none]
    rcases hc with rfl | rfl <;> exact ⟨by decide, by simp, by simp, by simp, by decide⟩
  have hnone : ∀ op ∈ longOperators, ¬op <+: c :: k := by
    intro op hop hpre
    obtain ⟨d, r, rfl⟩ := List.exists_cons_of_ne_nil (hheads op hop).1
    obtain ⟨rfl, -⟩ := List.cons_prefix_cons.mp hpre
    exact (hheads _ hop).2 rfl
  have hop : operator (c :: k) = { kind := .operator, size := 1 } := by
    have hsize := operator_size_of_none hnone
    rw [operator] at hsize ⊢
    simp only at hsize
    rw [hsize]
  rw [lexeme_of_startsPlain hp, plain_sign ctx k hsigns hink.2 hink.1, hop]

lemma lexeme_comma (ctx : Context) (k : Text) :
    lexeme Dialect.standard.lexicon ctx (',' :: k) = .ok { kind := .operator, size := 1 } :=
  lexeme_mark (.inl rfl) ctx k

lemma Typeset.sound {ctx : Context} {n m : Nat} {ts : List Token} {ps : List Piece}
    (h : Typeset ctx n ts ps m) : ∀ q ∈ ps, q.Sound := by
  induction h with
  | done => simp
  | blank _ _ _ ih | hold _ _ _ _ ih => exact ih
  | release gap hgap _ ih =>
    refine List.forall_mem_cons.mpr ⟨⟨hgap, .inr ⟨.start, ⟨.operator, [','], none, none⟩, [], ?_⟩⟩, ih⟩
    exact ⟨⟨_, ⟨lexeme_comma .start [], rfl, by simp⟩, rfl⟩, by simp, rfl, rfl, rfl⟩
  | comment gap text _ _ hgap hblock _ ih =>
    exact List.forall_mem_cons.mpr ⟨⟨hgap, .inl ⟨rfl, hblock⟩⟩, ih⟩
  | set gap ht hb hc hgap _ ih =>
    exact List.forall_mem_cons.mpr ⟨⟨hgap, .inr ⟨_, _, _, ht, hb, hc, rfl, rfl⟩⟩, ih⟩

end SqlLayout
