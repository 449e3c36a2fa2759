import SqlLayout.Format
import SqlLayout.Proofs.Legibility

/-!
# Reading a formatted query

The tokens of a formatted query are those of the query exactly if the pieces of its page do not
collide and no comma is still held back at its end.
-/

namespace SqlLayout

open Lexeme

/-! ### The contents of tokens and pieces -/

/-- The texts of the tokens that are neither blank nor comments, every run of blanks in them one
space. -/
def contents (ts : List Token) : List Text :=
  (ts.filter fun t => t.kind != .blank && !t.kind.isComment).map fun t => Text.collapse t.text

/-- The texts of the pieces that are no comments, every run of blanks in them one space. -/
def pieceContents (ps : List Piece) : List Text :=
  (ps.filter fun p => !p.kind.isComment).map fun p => Text.collapse p.text

section

variable {t : Token} {ts : List Token} {p : Piece} {ps : List Piece}

lemma contents_cons_of_skip (h : t.kind = .blank ∨ t.kind.isComment = true) :
    contents (t :: ts) = contents ts := by
  rcases h with h | h <;> simp [contents, h]

lemma contents_cons_of_content (hb : t.kind ≠ .blank) (hc : t.kind.isComment = false) :
    contents (t :: ts) = Text.collapse t.text :: contents ts := by
  simp [contents, hb, hc]

lemma pieceContents_cons_of_comment (h : p.kind.isComment = true) :
    pieceContents (p :: ps) = pieceContents ps := by
  simp [pieceContents, h]

lemma pieceContents_cons_of_content (h : p.kind.isComment = false) :
    pieceContents (p :: ps) = Text.collapse p.text :: pieceContents ps := by
  simp [pieceContents, h]

end

lemma Text.collapse_collapse (t : Text) : collapse (collapse t) = collapse t := by
  fun_induction collapse t with
  | case1 => rfl
  | case2 c cs hc hs ih => exact ih
  | case3 c cs hc hs ih =>
    rw [collapse, if_pos (by decide), startsBlank_collapse, if_neg hs, ih]
  | case4 c cs hc ih => rw [collapse, if_neg hc, ih]

lemma Token.collapse_written (t : Token) : Text.collapse t.written = Text.collapse t.text := by
  rw [Token.written]
  split
  · exact Text.collapse_collapse _
  · rfl

lemma Typeset.contents {ctx : Context} {n m : Nat} {ts : List Token} {ps : List Piece}
    (h : Typeset ctx n ts ps m) :
    pieceContents ps ++ List.replicate m [','] = List.replicate n [','] ++ SqlLayout.contents ts := by
  have hcomma : Text.collapse [','] = [','] := by decide
  induction h with
  | done ctx n => simp [pieceContents, SqlLayout.contents]
  | blank _ hk _ ih => rw [ih, contents_cons_of_skip (.inl hk)]
  | hold _ hk htext _ ih =>
    rw [ih, contents_cons_of_content (by simp [hk]) (by simp [hk, Kind.isComment]), htext, hcomma,
      List.replicate_succ', List.append_assoc, List.singleton_append]
  | release gap _ _ ih =>
    rw [pieceContents_cons_of_content rfl, hcomma, List.cons_append, ih, List.replicate_succ,
      List.cons_append]
  | comment gap text _ hc _ _ _ ih =>
    rw [pieceContents_cons_of_comment rfl, ih, contents_cons_of_skip (.inr hc)]
  | @set _ _ t _ _ gap _ hb hc _ _ ih =>
    rw [pieceContents_cons_of_content hc, contents_cons_of_content hb hc, t.collapse_written,
      List.cons_append, ih]
    rfl

/-! ### Reading pieces back -/

/-- Tokens that stand for pieces: a blank one for the blanks in front of a piece, if there are any,
and one of the given kind for its text. -/
inductive Spells : List Piece → List Kind → List Token → Prop
  | nil : Spells [] [] []
  | tight {q : Piece} {ps : List Piece} {ks : List Kind} {t : Token} {ts : List Token} :
      q.gap = [] → t.text = q.text → t.kind ≠ .blank → t.kind.isComment = q.kind.isComment →
      Spells ps ks ts → Spells (q :: ps) (t.kind :: ks) (t :: ts)
  | spaced {q : Piece} {ps : List Piece} {ks : List Kind} {b t : Token} {ts : List Token} :
      q.gap ≠ [] → b.kind = .blank → t.text = q.text → t.kind ≠ .blank →
      t.kind.isComment = q.kind.isComment → Spells ps ks ts →
      Spells (q :: ps) (t.kind :: ks) (b :: t :: ts)

lemma Spells.contents {ps : List Piece} {ks : List Kind} {ts : List Token} (h : Spells ps ks ts) :
    contents ts = pieceContents ps := by
  have hone : ∀ {q : Piece} {t : Token} {ps : List Piece} {ts : List Token}, t.text = q.text →
      t.kind ≠ .blank → t.kind.isComment = q.kind.isComment →
      SqlLayout.contents ts = pieceContents ps →
      SqlLayout.contents (t :: ts) = pieceContents (q :: ps) := by
    intro q t ps ts htext hb hc ih
    cases hq : q.kind.isComment with
    | true => rw [contents_cons_of_skip (.inr (hc.trans hq)), pieceContents_cons_of_comment hq, ih]
    | false =>
      rw [contents_cons_of_content hb (hc.trans hq), pieceContents_cons_of_content hq, htext, ih]
  induction h with
  | nil => rfl
  | tight _ htext hb hc _ ih => exact hone htext hb hc ih
  | spaced _ hblank htext hb hc _ ih =>
    rw [contents_cons_of_skip (.inl hblank)]
    exact hone htext hb hc ih

section

variable {gap k : Text}

lemma lexeme_gap (hgap : gap.isAllBlank = true) (hne : gap ≠ []) (hk : k.startsBlank = false)
    (ctx : Context) :
    lexeme Dialect.standard.lexicon ctx (gap ++ k) = .ok { kind := .blank, size := gap.length } := by
  have hall : ∀ c ∈ gap, Text.isBlank c = true := by simpa [Text.isAllBlank] using hgap
  obtain ⟨c, g, rfl⟩ := List.exists_cons_of_ne_nil hne
  rw [List.cons_append, lexeme_cons, if_pos (hall c (by simp)), ← List.cons_append,
    Text.takeWhile_blank_append hgap hk]

lemma Reads.pastGap {ctx : Context} {p : Position} {ts : List Token}
    (h : Reads Dialect.standard.lexicon ctx p (gap ++ k) ts) (hgap : gap.isAllBlank = true)
    (hk : k.startsBlank = false) :
    ∃ p' us, Reads Dialect.standard.lexicon (ctx.pastGap gap) p' k us ∧ contents ts = contents us := by
  rw [Context.pastGap]
  split
  · next hnil => exact ⟨p, ts, by simpa [hnil] using h, rfl⟩
  · next hne =>
    have hlex := lexeme_gap hgap hne hk ctx
    generalize ht : gap ++ k = t at h hlex
    cases h with
    | nil => simp_all
    | @cons _ _ text rest l us hl hs _ hr =>
      obtain rfl : _ = l := Except.ok.inj (hlex.symm.trans hl)
      obtain ⟨rfl, rfl⟩ := List.append_inj ht hs
      exact ⟨_, us, hr, contents_cons_of_skip (.inl rfl)⟩

end

lemma Lexed.kind_ne_blank {ctx : Context} {x s : Text} {l : Lexeme} (h : Lexed ctx x s l)
    (hx : x.startsBlank = false) : l.kind ≠ .blank := by
  rcases h.cases with ⟨-, hb⟩ | ⟨hk, -⟩ | ⟨hk, -⟩ | ⟨hk, -⟩ | ⟨hp, hl⟩
  · simp [hx] at hb
  · simp [hk]
  · simp [hk]
  · simp [hk]
  · exact (Rule.of_plain hp hl h.size h.ne_nil).kind_cases.1

lemma ReadsBack.reads {ctx : Context} {ps : List Piece} {ks : List Kind} (h : ReadsBack ctx ps ks)
    (hsound : ∀ q ∈ ps, q.Sound) (p : Position) :
    ∃ ts, Reads Dialect.standard.lexicon ctx p (joined ps) ts ∧ Spells ps ks ts := by
  induction h generalizing p with
  | nil ctx => exact ⟨[], .nil ctx p, .nil⟩
  | @cons ctx q rest l ks hl hsize hc _ ih =>
    have hq := hsound q (by simp)
    have hne := hq.solid.ne_nil
    have hb : l.kind ≠ .blank := Lexed.kind_ne_blank ⟨hl, hsize, hne⟩ hq.solid.head
    obtain ⟨ts, hreads, hspells⟩ := ih (fun r hr => hsound r (List.mem_cons_of_mem _ hr))
      ((p.advance q.gap).advance q.text)
    have hhead : Reads Dialect.standard.lexicon (ctx.pastGap q.gap) (p.advance q.gap)
        (q.text ++ joined rest) (l.token (p.advance q.gap) q.text :: ts) := .cons hl hsize hne hreads
    by_cases hgap : q.gap = []
    · refine ⟨_, ?_, .tight (t := l.token p q.text) hgap rfl hb hc hspells⟩
      simpa [hgap, Context.pastGap, Position.advance] using hhead
    · have hblank := lexeme_gap hq.blank hgap
        (k := q.text ++ joined rest) (by rw [Text.startsBlank_append hne, hq.solid.head]) ctx
      rw [Context.pastGap, if_neg hgap] at hhead
      rw [joined_cons]
      exact ⟨_, .cons hblank rfl hgap hhead,
        .spaced (t := l.token (p.advance q.gap) q.text) hgap rfl rfl hb hc hspells⟩

lemma Text.Solid.eq_of_collapse {x y k k' : Text} (hx : x.Solid) (hy : y.Solid)
    (h : y ++ k' = x ++ k) (hc : Text.collapse y = Text.collapse x) : y = x := by
  have hink : ink y = ink x := by rw [← ink_collapse y, hc, ink_collapse]
  have hsame : ∀ {a b : Text}, a.Solid → (a ++ b).Solid → ink (a ++ b) = ink a → a = a ++ b := by
    intro a b ha hab hi
    have hb : b.isAllBlank = true := by
      have hnil : ink b = [] := by simpa using hi
      simpa [ink, List.filter_eq_nil_iff, isAllBlank] using hnil
    have hlast := hab.last
    rwa [trimEnd_append_blank hb, ha.last] at hlast
  rcases List.append_eq_append_iff.mp h with ⟨b, rfl, -⟩ | ⟨b, rfl, -⟩
  · exact hsame hy hx hink.symm
  · exact (hsame hx hy hink).symm

lemma Piece.Sound.content_of_lexeme {q : Piece} {ctx : Context} {y k k' : Text} {l : Lexeme}
    (hq : q.Sound) (hc : q.kind.isComment = false) (hseam : q.text.isLoose = true ∨ k.isSeam = true)
    (htext : y ++ k' = q.text ++ k) (hl : Lexed ctx y k' l) :
    l.kind.isComment = false ∧ y.Solid := by
  suffices hcomment : l.kind.isComment = false by
    have hyb : y.startsBlank = false := by
      rw [← Text.startsBlank_append hl.ne_nil (k := k'), htext, Text.startsBlank_append hq.solid.ne_nil,
        hq.solid.head]
    exact ⟨hcomment, hl.solid (hl.kind_ne_blank hyb) hcomment⟩
  have heq := hl.eq
  rw [htext] at heq
  by_cases hquoted : q.kind = .quoted
  · rcases hq.rule hc (by simp [hquoted]) with ⟨-, s, hs⟩ | ⟨_, _, -, hr⟩
    · obtain ⟨l', hl', -, hk'⟩ := hs.reread hseam ctx
      obtain rfl := Except.ok.inj (heq.symm.trans hl')
      simp [hk', Kind.isComment]
    · exact absurd hquoted hr.kind_ne_quoted
  · have hplain := hq.startsPlain hc hquoted hseam
    rw [lexeme_of_startsPlain hplain] at heq
    rw [← htext] at hplain heq
    exact (Rule.of_plain hplain (Except.ok.inj heq).symm hl.size hl.ne_nil).kind_cases.2.1

/-- If the contents of pieces are read from their text, then every piece is read back, and nothing
else is read. -/
lemma Reads.readsBack {ctx : Context} {p : Position} {ps : List Piece} {ts : List Token} {w : List Text}
    (h : Reads Dialect.standard.lexicon ctx p (joined ps) ts) (hsound : ∀ q ∈ ps, q.Sound)
    (hchain : ps.IsChain Seam) (hcontents : contents ts = pieceContents ps ++ w) :
    (∃ ks, ReadsBack ctx ps ks) ∧ w = [] := by
  induction ps generalizing ctx p ts with
  | nil =>
    generalize ht : joined [] = t at h
    cases h with
    | nil => exact ⟨⟨[], .nil ctx⟩, by simpa [contents, pieceContents, eq_comm] using hcontents⟩
    | cons _ _ hne _ => simp_all
  | cons q rest ih =>
    have hq := hsound q (by simp)
    have hrest : ∀ r ∈ rest, r.Sound := fun r hr => hsound r (List.mem_cons_of_mem _ hr)
    have hhead : (q.text ++ joined rest).startsBlank = false := by
      rw [Text.startsBlank_append hq.solid.ne_nil, hq.solid.head]
    rw [joined_cons] at h
    obtain ⟨p', us, h, hus⟩ := h.pastGap hq.blank hhead
    rw [hus] at hcontents
    generalize ht : q.text ++ joined rest = t at h
    cases h with
    | nil => exact absurd (List.append_eq_nil_iff.mp ht).1 hq.solid.ne_nil
    | @cons _ _ y k' l vs hl hs hne hr =>
      have hlexed : Lexed (ctx.pastGap q.gap) y k' l := ⟨hl, hs, hne⟩
      have hgo : y = q.text → l.kind.isComment = q.kind.isComment →
          contents vs = pieceContents rest ++ w → (∃ ks, ReadsBack ctx (q :: rest) ks) ∧ w = [] := by
        rintro rfl hc hvs
        obtain rfl := List.append_cancel_left ht
        obtain ⟨⟨ks, hks⟩, hw⟩ := ih hr hrest hchain.tail hvs
        exact ⟨⟨_, .cons hl hs hc hks⟩, hw⟩
      cases hc : q.kind.isComment with
      | true =>
        have hblock : IsBlockComment q.text := by
          rcases hq.origin with ⟨-, hblock⟩ | ⟨_, _, _, _, _, hc', hkind, -⟩
          · exact hblock
          · rw [hkind, hc'] at hc
            simp at hc
        have hl' := hblock.lexeme (ctx.pastGap q.gap) (joined rest)
        rw [ht, hl] at hl'
        obtain rfl := Except.ok.inj hl'
        refine hgo (List.append_inj_left ht hs).symm hc.symm ?_
        rwa [contents_cons_of_skip (.inr rfl), pieceContents_cons_of_comment hc] at hcontents
      | false =>
        have hseam := loose_or_seam_of_chain hq hrest hchain
        obtain ⟨hlc, hsolid⟩ := hq.content_of_lexeme hc hseam ht.symm hlexed
        rw [contents_cons_of_content (hlexed.kind_ne_blank hsolid.head) hlc,
          pieceContents_cons_of_content hc, List.cons_append, List.cons.injEq] at hcontents
        exact hgo (hq.solid.eq_of_collapse hsolid ht.symm hcontents.1) (hlc.trans hc.symm) hcontents.2

/-! ### The text of a page -/

/-- Pieces without the blanks in front of the first one. -/
def flush : List Piece → List Piece
  | [] => []
  | q :: ps => { q with gap := [] } :: ps

section

variable {ps : List Piece}

lemma pieceContents_flush : pieceContents (flush ps) = pieceContents ps := by
  cases ps with
  | nil => rfl
  | cons q ps => cases hq : q.kind.isComment <;> simp [flush, pieceContents, hq]

lemma sound_flush (h : ∀ q ∈ ps, q.Sound) : ∀ q ∈ flush ps, q.Sound := by
  cases ps with
  | nil => exact h
  | cons q ps =>
    intro r hr
    rcases List.mem_cons.mp hr with rfl | hr
    · exact ⟨rfl, (h q (by simp)).origin⟩
    · exact h r (List.mem_cons_of_mem _ hr)

lemma isChain_flush (h : ps.IsChain Seam) : (flush ps).IsChain Seam := by
  cases ps with
  | nil => exact h
  | cons q ps =>
    rw [List.isChain_cons] at h
    exact List.isChain_cons.mpr h

lemma Context.pastGap_start {gap : Text} (hgap : gap.isAllBlank = true) :
    Context.start.pastGap gap = .start := by
  have hne : gap ≠ ['.'] := by
    rintro rfl
    exact absurd hgap (by decide)
  rw [pastGap]
  split
  · rfl
  · simp [next, start, hne]

lemma readsBack_flush {ks : List Kind} (h : ∀ q ∈ ps, q.Sound) :
    ReadsBack .start (flush ps) ks ↔ ReadsBack .start ps ks := by
  cases ps with
  | nil => rfl
  | cons q ps =>
    have hgap := Context.pastGap_start (h q (by simp)).blank
    have hnil : Context.start.pastGap [] = .start := rfl
    constructor
    · intro hr
      cases hr with
      | cons hl hs hc hrest =>
        rw [hnil, ← hgap] at hl hrest
        exact .cons hl hs hc hrest
    · intro hr
      cases hr with
      | cons hl hs hc hrest =>
        rw [hgap] at hl hrest
        exact .cons hl hs hc hrest

lemma joined_flush (h : ∀ q ∈ ps, q.Sound) : joined (flush ps) = (joined ps).trimStart := by
  cases ps with
  | nil => rfl
  | cons q ps =>
    have hq := h q (by simp)
    rw [joined_cons q, Text.trimStart_blank_append hq.blank]
    · simp [flush]
    · rw [Text.startsBlank_append hq.solid.ne_nil, hq.solid.head]

lemma Draft.text_of_body {s : Draft} (hsound : ∀ q ∈ ps, q.Sound) (h : s.body = joined ps) :
    s.text = joined (flush ps) := by
  have hblank := isAllBlank_tail s
  have htrim := trimEnd_body s
  rw [Draft.text, Text.trim, ← body_append_tail, h]
  rw [h] at htrim
  cases ps with
  | nil =>
    obtain ⟨b, -, hb⟩ := Text.exists_append_trimStart s.tail
    rw [hb, Text.isAllBlank_append] at hblank
    exact Text.trimEnd_eq_nil hblank.2
  | cons q ps =>
    have hq := hsound q (by simp)
    have hhead : ∀ k, (q.text ++ k).startsBlank = false := fun k => by
      rw [Text.startsBlank_append hq.solid.ne_nil, hq.solid.head]
    rw [joined_cons] at htrim ⊢
    rw [List.append_assoc, List.append_assoc, Text.trimStart_blank_append hq.blank (hhead _),
      ← List.append_assoc, Text.trimEnd_append_blank hblank]
    rw [Text.trimEnd_append_of_trimEnd_ne_nil] at htrim
    · rw [List.append_cancel_left htrim]
      simp [flush]
    · exact Text.trimEnd_ne_nil (hhead _) (by simp [hq.solid.ne_nil])

end

lemma formatWith_eq_ok {o : Options} {query page : Text} {ts : List Token}
    (hts : tokenize o.dialect query = .ok ts) (hpage : layout o ts = .ok page) :
    formatWith o query = .ok page := by
  simp [formatWith, hts, hpage]

/-- Formatting keeps the tokens of a query, that is they are read again from the formatted text, in
order and but for blanks and comments, exactly if the pieces of the page are legible and no comma is
still held back at its end. -/
theorem format_keeps_contents_iff (o : Options) (hdialect : o.dialect = .standard)
    (hbind : o.bindings = .none) (hunit : o.unit.isAllBlank = true) (query : Text) (ts : List Token)
    (hts : tokenize .standard query = .ok ts) :
    ∃ page, formatWith o query = .ok page ∧ page = (joined (Draft.pieces o {} 0 ts)).trimStart ∧
      ((∃ us, tokenize .standard page = .ok us ∧ contents us = contents ts) ↔
        Legible (Draft.pieces o {} 0 ts) ∧ (Draft.run o {} 0 ts).1.held = []) := by
  have hreads := (tokensFrom_eq_ok_iff Dialect.standard_substantial).mp hts
  obtain ⟨s, hrun, hset⟩ := Draft.run_composes hunit hbind hreads {} 0 (by simp)
  have hsound := hset.typeset.sound
  have hpage := Draft.text_of_body hsound hset.body
  have hcontents := hset.typeset.contents
  refine ⟨s.text, ?_, by rw [hpage, joined_flush hsound], ?_⟩
  · exact formatWith_eq_ok (hdialect ▸ hts) (by rw [layout, hrun])
  rw [hpage, hrun]
  generalize Draft.pieces o {} 0 ts = ps at *
  constructor
  · rintro ⟨us, hus, heq⟩
    have hreads' := (tokensFrom_eq_ok_iff Dialect.standard_substantial).mp hus
    obtain ⟨⟨ks, hks⟩, hnil⟩ := hreads'.readsBack (sound_flush hsound) (isChain_flush hset.chain)
      (w := List.replicate s.held.length [',']) (by rw [heq, pieceContents_flush, hcontents]; rfl)
    refine ⟨((readsBack_flush hsound).mp hks).legible hsound hset.chain, ?_⟩
    simpa using hnil
  · rintro ⟨hleg, hheld⟩
    have hheld : s.held = [] := hheld
    have hstep : InStep .start .start 0 none ps :=
      ⟨by simp [Context.start], by simp [Context.start], by simp [Context.start]⟩
    obtain ⟨ks, hks, -⟩ := hset.typeset.readsBack none (by simp) hset.chain hleg hstep
    obtain ⟨us, hus, hspells⟩ := ((readsBack_flush hsound).mpr hks).reads (sound_flush hsound) .start
    refine ⟨us, tokensFrom_of_reads hus, ?_⟩
    rw [hspells.contents, pieceContents_flush]
    simpa [hheld] using hcontents

theorem format_keeps_contents_of_list :
    ∃ ts page us, tokenize .standard ['(', '1', ' ', ',', '?', ')'] = .ok ts ∧
      formatWith {} ['(', '1', ' ', ',', '?', ')'] = .ok page ∧ tokenize .standard page = .ok us ∧
      contents us = contents ts := by
  have hreads : ∃ ts, Reads Dialect.standard.lexicon .start .start
      (['('] ++ (['1'] ++ ([' '] ++ ([','] ++ (['?'] ++ ([')'] ++ [])))))) ts ∧
      Legible (Draft.pieces {} {} 0 ts) ∧ (Draft.run {} {} 0 ts).1.held = [] := by
    refine ⟨_, .cons rfl rfl (by simp) (.cons rfl rfl (by simp) (.cons rfl rfl (by simp)
      (.cons (lexeme_comma _ _) rfl (by simp) (.cons rfl rfl (by simp)
        (.cons rfl rfl (by simp) (.nil _ _)))))), ?_, ?_⟩
    · decide +kernel
    · decide +kernel
  obtain ⟨ts, hreads, hlegible, hheld⟩ := hreads
  have hts := tokensFrom_of_reads hreads
  obtain ⟨page, hpage, -, hiff⟩ := format_keeps_contents_iff {} rfl rfl rfl _ ts hts
  obtain ⟨us, hus, heq⟩ := hiff.mpr ⟨hlegible, hheld⟩
  exact ⟨ts, page, us, hts, hpage, hus, heq⟩

/-- A number, a dot and another number are set without blanks and read as one number. -/
theorem format_merges_numbers : ¬∀ (query : Text) (ts : List Token), tokenize .standard query = .ok ts →
    ∃ page us, formatWith {} query = .ok page ∧ tokenize .standard page = .ok us ∧
      contents us = contents ts := by
  intro h
  have hdot : lexeme Dialect.standard.lexicon ⟨false, true⟩ ['.', ' ', '5'] =
      .ok { kind := .operator, size := 1 } := by
    rw [lexeme_of_startsPlain (by decide +kernel), plain_sign _ _ (by decide) (by decide +kernel)
      (by decide)]
    rfl
  have hquery : ∃ ts, Reads Dialect.standard.lexicon .start .start
      (['1'] ++ ([' '] ++ (['.'] ++ ([' '] ++ (['5'] ++ []))))) ts ∧
      layout {} ts = .ok ['1', '.', '5'] ∧ contents ts = [['1'], ['.'], ['5']] :=
    ⟨_, .cons rfl rfl (by simp) (.cons rfl rfl (by simp) (.cons hdot rfl (by simp)
      (.cons rfl rfl (by simp) (.cons rfl rfl (by simp) (.nil _ _))))), rfl, rfl⟩
  have hmerged : ∃ us, Reads Dialect.standard.lexicon .start .start (['1', '.', '5'] ++ []) us ∧
      contents us = [['1', '.', '5']] := ⟨_, .cons rfl rfl (by simp) (.nil _ _), rfl⟩
  obtain ⟨ts, hts, hlayout, hcontents⟩ := hquery
  obtain ⟨us, hus, hcontents'⟩ := hmerged
  have htokens : tokenize Dialect.standard ['1', ' ', '.', ' ', '5'] = .ok ts := tokensFrom_of_reads hts
  obtain ⟨page, us', hpage, hus', heq⟩ := h _ ts htokens
  obtain rfl := Except.ok.inj ((formatWith_eq_ok htokens hlayout).symm.trans hpage)
  obtain rfl := Except.ok.inj ((tokensFrom_of_reads hus).symm.trans hus')
  rw [hcontents, hcontents'] at heq
  simp at heq

end SqlLayout
