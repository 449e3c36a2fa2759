import SqlLayout.Proofs.ReadingBack

/-!
# Legible pages

The tokens of a laid out query are read back from its page exactly if no two neighbouring pieces
collide and no comma is still held back at the end.
-/

namespace SqlLayout

open Lexeme

/-! ### Pieces that collide are not read back -/

lemma IsBlockComment.getLast? {x : Text} (h : IsBlockComment x) :
    ∃ c ∈ closingSigns, x.getLast? = some c := by
  obtain ⟨body, rfl, -⟩ := h
  have htext : ['/', '*'] ++ (body ++ ['*', '/']) = ('/' :: '*' :: (body ++ ['*'])) ++ ['/'] := by simp
  exact ⟨'/', by decide, by rw [htext, List.getLast?_concat]⟩

lemma Text.runsOn_of_isWhole {x : Text} (h : x.isWhole = true) : x.runsOn = true := by
  simp only [isWhole, Bool.and_eq_true, Bool.not_eq_true', List.all_eq_true] at h
  have hne : unsigned x ≠ [] := by simpa using h.1
  have hend : endsWord (unsigned x) = true :=
    endsWord_of_forall hne fun c hc => isWordChar_of_isDigit (h.2 c hc)
  cases x with
  | nil => exact absurd rfl hne
  | cons c y =>
    by_cases hc : c = '-'
    · subst hc
      have hend' : endsWord ('-' :: y) = true := by
        rw [← List.singleton_append, endsWord_append (b := y) hne]
        exact hend
      simp [runsOn, hend']
    · rw [unsigned_cons hc] at hend h
      have hquery : c ≠ '?' := by
        rintro rfl
        exact absurd (h.2 '?' (by simp)) (by decide)
      simp [runsOn, hend, hquery]

lemma numberSize?_of_keyword? {ctx : Context} {t : Text} {l : Lexeme}
    (h : keyword? Dialect.standard.lexicon ctx t = some l) : numberSize? t = none := by
  have hle := (fits_keyword h).2
  rw [keyword?] at h
  split at h
  · simp at h
  · obtain ⟨⟨role, ws⟩, hmem, hl⟩ := List.exists_of_findSome?_eq_some h
    obtain ⟨n, hn, rfl⟩ := Option.map_eq_some_iff.mp hl
    have hlen : (t.take n).length = n := List.length_take_of_le hle
    obtain ⟨c, d, y, hx, hc, -, hdigit⟩ := keyword_head (x := t.take n) (s := t.drop n) hmem
      (by rw [List.take_append_drop, hn, hlen])
    rw [← List.take_append_drop n t, hx]
    refine numberSize?_eq_none ?_ hdigit
    rintro rfl
    exact absurd hc (by decide)

lemma Piece.Sound.lexed {p : Piece} {ctx : Context} {k : Text} {l : Lexeme} (hp : p.Sound)
    (h : Lexed ctx p.text k l) (hc : l.kind.isComment = p.kind.isComment) :
    p.text.runsOn = false ∧ p.text ≠ [':'] ∧ p.text ≠ ['.'] ∨
    l = plain Dialect.standard.lexicon ctx (p.text ++ k) ∧ Rule ctx p.text k l.kind := by
  have hclosing : (∃ c ∈ closingSigns, p.text.getLast? = some c) →
      p.text.runsOn = false ∧ p.text ≠ [':'] ∧ p.text ≠ ['.'] := by
    rintro ⟨c, hmem, hlast⟩
    refine ⟨Text.not_runsOn_of_closing hlast hmem, ?_, ?_⟩ <;>
    · intro hx
      rw [hx] at hlast
      obtain rfl := Option.some.inj hlast
      exact absurd hmem (by decide)
  rcases h.cases with ⟨-, hb⟩ | ⟨hk, -⟩ | ⟨-, hblock⟩ | ⟨-, hq⟩ | ⟨hplain, hl⟩
  · simp [hp.solid.head] at hb
  · refine .inl (hclosing ?_)
    rcases hp.origin with ⟨-, hblock⟩ | ⟨_, _, _, _, _, hc', hkind, -⟩
    · exact hblock.getLast?
    · rw [hk, hkind, hc'] at hc
      exact absurd hc (by decide)
  · exact .inl (hclosing hblock.getLast?)
  · exact .inl (hclosing hq.getLast?)
  · exact .inr ⟨hl, .of_plain hplain hl h.size h.ne_nil⟩

/-- The pieces of a page from one on, read back in a context. -/
structure ReadsHead (ctx : Context) (q : Piece) (rest : List Piece) (l : Lexeme) : Prop where
  sound : q.Sound
  later : ∀ r ∈ rest, r.Sound
  chain : (q :: rest).IsChain Seam
  lexed : Lexed (ctx.pastGap q.gap) q.text (joined rest) l
  comment : l.kind.isComment = q.kind.isComment

lemma ReadsBack.head {ctx : Context} {q : Piece} {rest : List Piece} {ks : List Kind}
    (h : ReadsBack ctx (q :: rest) ks) (hsound : ∀ r ∈ q :: rest, r.Sound)
    (hchain : (q :: rest).IsChain Seam) :
    ∃ l ks', ReadsHead ctx q rest l ∧ ReadsBack ((ctx.pastGap q.gap).next l.kind q.text) rest ks' := by
  cases h with
  | @cons _ _ _ l ks' hl hsize hc hrest =>
    have hq := hsound q (by simp)
    exact ⟨l, ks', ⟨hq, fun r hr => hsound r (by simp [hr]), hchain,
      ⟨hl, hsize, hq.solid.ne_nil⟩, hc⟩, hrest⟩

namespace ReadsHead

variable {ctx : Context} {q : Piece} {rest : List Piece} {l : Lexeme}

lemma eq_plain (h : ReadsHead ctx q rest l) (hc : q.kind.isComment = false) (hq : q.kind ≠ .quoted) :
    l = plain Dialect.standard.lexicon (ctx.pastGap q.gap) (q.text ++ joined rest) := by
  have hp := h.sound.startsPlain hc hq (loose_or_seam_of_chain h.sound h.later h.chain)
  have heq := h.lexed.eq
  rw [lexeme_of_startsPlain hp] at heq
  exact (Except.ok.inj heq).symm

lemma eq_word (h : ReadsHead ctx q rest l) (hgap : q.gap = []) (hdot : ctx.afterDot = true)
    (hw : q.text.startsWord = true) (hk : q.kind = .opening ∨ ∃ role, q.kind = .keyword role) :
    l.kind = .word ∧ ∀ c ∈ q.text, Text.isWordChar c = true := by
  have hnum : numberSize? (q.text ++ joined rest) = none := by
    rcases hk with hk | ⟨role, hk⟩
    · rcases h.sound.opening hk with hx | hx
      · rw [hx] at hw
        exact absurd hw (by decide)
      · obtain ⟨c, y, hx', hc, -⟩ := Text.head_of_upper (.inl rfl) hx
        rw [hx']
        rcases hc with rfl | rfl <;> exact numberSize?_eq_none (by decide) (by decide)
    · obtain ⟨c, d, y, hx, hc, -, hdigit⟩ := h.sound.keyword hk
      rw [hx]
      refine numberSize?_eq_none ?_ hdigit
      rintro rfl
      exact absurd hc (by decide)
  have hplain := h.eq_plain (by rcases hk with hk | ⟨role, hk⟩ <;> simp [hk, Kind.isComment])
    (by rcases hk with hk | ⟨role, hk⟩ <;> simp [hk])
  rw [Context.pastGap, if_pos hgap, plain_afterDot hdot hw hnum] at hplain
  subst hplain
  refine ⟨rfl, fun c hc => ?_⟩
  have htake := eq_of_prefix_of_length (List.takeWhile_prefix _) h.lexed.size
  rw [← htake] at hc
  exact List.all_eq_true.mp List.all_takeWhile c hc

lemma not_signed (h : ReadsHead ctx q rest l) (ho : ctx.afterOperand = true) (hk : q.kind = .number) :
    q.text.head? ≠ some '-' := by
  intro hm
  obtain ⟨d, y, hx, hd⟩ := h.sound.signed hk hm
  have hplain := h.eq_plain (by simp [hk, Kind.isComment]) (by simp [hk])
  have hnum : number? (ctx.pastGap q.gap) ('-' :: (d :: y ++ joined rest)) = none := by
    rw [number?, Context.afterOperand_pastGap, ho]
    rfl
  rw [hx, List.cons_append, plain_minus, hnum, Option.getD_none] at hplain
  have hsize := h.lexed.size
  rw [hplain, hx] at hsize
  have hlong : ∀ op ∈ longOperators, op.head? = some '-' →
      ((op.drop 1).head?.all fun c => !c.isDigit) = true := by decide
  rcases operator_text (x := '-' :: d :: y) hsize with hmem | hone
  · simpa [hd] using hlong _ hmem rfl
  · simp at hone

end ReadsHead

/-- Pieces that are read back do not collide. -/
lemma ReadsBack.not_collision {ctx : Context} {p q : Piece} {rest : List Piece} {ks : List Kind}
    (h : ReadsBack ctx (p :: q :: rest) ks) (hsound : ∀ r ∈ p :: q :: rest, r.Sound)
    (hchain : (p :: q :: rest).IsChain Seam) : ¬Collision p q rest := by
  obtain ⟨l, ks', hp, hback⟩ := h.head hsound hchain
  obtain ⟨l', ks'', hq, hback'⟩ := hback.head (fun r hr => hsound r (List.mem_cons_of_mem _ hr)) hchain.tail
  have hrule := hp.sound.lexed hp.lexed hp.comment
  have hjoined : q.gap = [] → joined (q :: rest) = q.text ++ joined rest := fun hgap => by simp [hgap]
  have hdot : p.text = ['.'] → ((ctx.pastGap p.gap).next l.kind p.text).afterDot = true := by
    rintro hp
    simp [Context.next, hp]
  intro hcol
  cases hcol with
  | words hgap hrun hw =>
    rcases hrule with ⟨hrun', -⟩ | ⟨-, hrule⟩
    · simp [hrun] at hrun'
    · have hnot := hrule.not_startsWord hrun
      rw [hjoined hgap, Text.startsWord_append hq.lexed.ne_nil, hw] at hnot
      simp at hnot
  | colons hgap hpt hqt =>
    rcases hrule with ⟨-, hne, -⟩ | ⟨hl, -⟩
    · exact hne hpt
    · have hsize := hp.lexed.size
      rw [hl, hjoined hgap, hpt, hqt] at hsize
      exact absurd ((plain_colons _ _).symm.trans hsize) (by simp)
  | fraction hgap hwhole hqt hsome =>
    rcases hrule with ⟨hrun, -⟩ | ⟨-, hrule⟩
    · simp [Text.runsOn_of_isWhole hwhole] at hrun
    · have hnone := hrule.fractionSize?_eq_none hwhole
      rw [hjoined hgap, hqt] at hnone
      have hdigits : digitsSize? Char.isDigit (joined rest) = none := hnone
      simp [hdigits] at hsome
  | splitKeyword role hgap hpt hk hsp =>
    obtain ⟨c, d, y, hx, hc, -⟩ := hq.sound.keyword hk
    have hw : q.text.startsWord = true := by
      rw [hx]
      exact hc
    exact absurd ((hq.eq_word hgap (hdot hpt) hw (.inr ⟨role, hk⟩)).2 ' ' hsp) (by decide)
  | subtraction r hgap hpt hw hk hr hn hm =>
    have hword := (hq.eq_word hgap (hdot hpt) hw hk).1
    obtain ⟨rest, rfl⟩ := List.head?_eq_some_iff.mp hr
    obtain ⟨l'', ks''', hr', -⟩ := hback'.head
      (fun r hr => hsound r (List.mem_cons_of_mem _ (List.mem_cons_of_mem _ hr))) hchain.tail.tail
    exact hr'.not_signed (by simp [Context.next, hword, Kind.isOperand]) hn hm
  | wrappedName l₁ hgap hpt hk hkey hne =>
    have hplain := hq.eq_plain (by simp [hk, Kind.isComment]) (by simp [hk])
    have hd : (((ctx.pastGap p.gap).next l.kind p.text).pastGap q.gap).afterDot = false := by
      rw [Bool.eq_false_iff]
      exact fun hd => hgap ((Context.afterDot_pastGap hq.sound.blank).mp hd).1
    rw [plain_of_startsWord (hq.sound.word hk) (numberSize?_of_keyword? hkey),
      keyword?_of_not_afterDot hd, hkey, Option.getD_some] at hplain
    exact hne (hplain ▸ hq.lexed.size)

lemma ReadsBack.legible {ctx : Context} {ps : List Piece} {ks : List Kind} (h : ReadsBack ctx ps ks)
    (hsound : ∀ q ∈ ps, q.Sound) (hchain : ps.IsChain Seam) : Legible ps := by
  induction h with
  | nil => trivial
  | @cons ctx q rest l ks hl hsize hc hrest ih =>
    cases rest with
    | nil => trivial
    | cons r rest =>
      exact ⟨(ReadsBack.cons hl hsize hc hrest).not_collision hsound hchain,
        ih (fun r hr => hsound r (List.mem_cons_of_mem _ hr)) hchain.tail⟩

end SqlLayout
