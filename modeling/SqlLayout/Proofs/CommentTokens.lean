import SqlLayout.Proofs.ReadingBack

/-!
# Comments in the output

A line comment is written as a block comment, and a block comment is written with its lines moved. What is
written is again one comment: read on its own it is a single token, so that nothing of the text of a
comment gets out of it, and all of its ink is still there.
-/

namespace SqlLayout

open Text

def commentToken (x : Text) : Token where
  kind := .blockComment
  text := x
  span := some ⟨.start, Position.start.advance x⟩

lemma IsBlockComment.tokenize {x : Text} (h : IsBlockComment x) :
    tokenize .standard x = .ok [commentToken x] := by
  have hlexeme := h.lexeme .start []
  rw [List.append_nil] at hlexeme
  have hread : Reads Dialect.standard.lexicon .start .start (x ++ [])
      [Lexeme.token ⟨.blockComment, x.length, none⟩ .start x] :=
    .cons (by rw [List.append_nil, hlexeme]) rfl h.solid.ne_nil (.nil _ _)
  rw [List.append_nil] at hread
  exact tokensFrom_of_reads hread

/-! ### The text of a line comment -/

lemma Text.exists_dropEndWhile_append (p : Char → Bool) (t : Text) :
    ∃ b : Text, (∀ c ∈ b, p c = true) ∧ t = dropEndWhile p t ++ b := by
  refine ⟨(t.reverse.takeWhile p).reverse, fun c hc => ?_, ?_⟩
  · exact List.all_eq_true.mp List.all_takeWhile c (List.mem_reverse.mp hc)
  · rw [dropEndWhile, ← List.reverse_append, List.takeWhile_append_dropWhile, List.reverse_reverse]

lemma ink_spaceClosers (t : Text) : ink (Comment.spaceClosers t) = ink t := by
  fun_induction Comment.spaceClosers t with
  | case1 => rfl
  | case2 cs ih => exact congrArg (fun u => '*' :: '/' :: u) ih
  | case3 c cs _ ih =>
    change ink ([c] ++ Comment.spaceClosers cs) = ink ([c] ++ cs)
    rw [ink_append, ink_append, ih]

section

variable {mark : Text} (hmark : mark = ['-', '-'] ∨ mark = ['#'])
include hmark

lemma dropEndWhile_mark_append {p : Char → Bool} (hp : p '-' = false ∧ p '#' = false) (body : Text) :
    dropEndWhile p (mark ++ body) = mark ++ dropEndWhile p body := by
  have hkept : mark.reverse.dropWhile p = mark.reverse := by
    rcases hmark with rfl | rfl <;> simp [hp]
  rw [dropEndWhile, List.reverse_append, List.dropWhile_append, dropEndWhile]
  cases hd : body.reverse.dropWhile p with
  | nil => simp [hkept]
  | cons c cs => simp

lemma dropMark_mark_append (body : Text) :
    Comment.dropMark Dialect.standard.commentMarks (mark ++ body) = body := by
  rcases hmark with rfl | rfl <;> rfl

lemma ink_ofLine (body : Text) :
    ink (Comment.ofLine Dialect.standard.commentMarks (mark ++ body)) =
      ['/', '*'] ++ ink body ++ ['*', '/'] := by
  obtain ⟨b, hb, hbody⟩ := exists_dropEndWhile_append (fun c => c == '\r' || c == '\n') body
  have hblank : b.isAllBlank = true := by
    rw [isAllBlank, List.all_eq_true]
    intro c hc
    have hc := hb c hc
    simp only [Bool.or_eq_true, beq_iff_eq] at hc
    rcases hc with rfl | rfl <;> decide
  have hink : ink (dropEndWhile (fun c => c == '\r' || c == '\n') body) = ink body := by
    conv_rhs => rw [hbody, ink_append, ink_eq_nil hblank, List.append_nil]
  rw [Comment.ofLine, dropEndWhile_mark_append hmark (by decide), dropMark_mark_append hmark, ink_append,
    ink_append, ink_spaceClosers, hink]
  rfl

end

lemma Lexed.exists_mark {ctx : Context} {x s : Text} {l : Lexeme} (h : Lexed ctx x s l)
    (hk : l.kind = .lineComment) : ∃ mark body, (mark = ['-', '-'] ∨ mark = ['#']) ∧ x = mark ++ body := by
  obtain ⟨c, r, rfl⟩ := List.exists_cons_of_ne_nil h.ne_nil
  have hmark : c = '-' ∧ (r ++ s).head? = some '-' ∨ c = '#' := by
    by_contra hmark
    rcases h.cases with ⟨hkind, -⟩ | ⟨-, hhead, -⟩ | ⟨hkind, -⟩ | ⟨hkind, -⟩ | ⟨hplain, hl⟩
    · simp [hk] at hkind
    · obtain rfl : c = '-' := by
        rcases hhead with hhead | hhead
        · simpa using hhead
        · exact absurd (.inr (by simpa using hhead)) hmark
      have hplain : startsPlain ('-' :: (r ++ s)) = true :=
        startsPlain_cons.mpr ⟨by decide, hmark, by simp, openerAt?_eq_none.mpr (by simp)⟩
      have heq := h.eq
      rw [List.cons_append, lexeme_of_startsPlain hplain, Except.ok.injEq] at heq
      have hkind := (Rule.of_plain hplain heq.symm h.size h.ne_nil).kind_cases.2.1
      simp [hk, Kind.isComment] at hkind
    · simp [hk] at hkind
    · simp [hk] at hkind
    · have hkind := (Rule.of_plain hplain hl h.size h.ne_nil).kind_cases.2.1
      simp [hk, Kind.isComment] at hkind
  rcases hmark with ⟨rfl, hhead⟩ | rfl
  · obtain ⟨k, hr⟩ := List.head?_eq_some_iff.mp hhead
    have heq := h.eq
    rw [List.cons_append, hr, lexeme_cons, if_neg (by decide), if_pos (by simp), Except.ok.injEq] at heq
    have hsize : lineLength k + 2 = r.length + 1 := by
      rw [← List.length_cons, ← h.size, ← heq]
      rfl
    obtain ⟨d, r, rfl⟩ := List.exists_cons_of_length_pos (l := r) (by omega)
    obtain ⟨rfl, -⟩ := List.cons.inj hr
    exact ⟨['-', '-'], r, .inl rfl, rfl⟩
  · exact ⟨['#'], r, .inr rfl, rfl⟩

/-! ### What the layout writes -/

lemma Draft.step_lineComment {t : Token} (hk : t.kind = .lineComment) (o : Options) (s : Draft) (index : Nat)
    (rest : List Token) : ∃ s', s.step o index t rest = .ok s' ∧
      s'.page.text = s.page.text ++ Comment.ofLine o.dialect.commentMarks t.text ++
        '\n' :: s'.levels.indentation o.unit := by
  have hstep : s.step o index t rest = .ok { s.lineComment o t.text with previous := some t.kind } := by
    simp [step, place, hk]
  refine ⟨_, hstep, ?_⟩
  have hsolid := (Comment.isBlockComment_ofLine o.dialect.commentMarks t.text).solid
  simp only [lineComment, newLine, write, Page.text_append, Page.text_trimEnd, trimEnd_append_solid hsolid,
    Bool.false_eq_true, if_false, List.append_assoc]
  rfl

/-- The text of a comment stays inside it. What the layout writes for a line comment, its mark and line
break aside, reads as one block comment with the same ink; and so does a block comment whose lines are
moved to any indentation of blanks. -/
theorem comment_stays_one_token (query : Text) (ts : List Token) (h : tokenize .standard query = .ok ts)
    (t : Token) (ht : t ∈ ts) :
    (t.kind = .lineComment → ∃ mark body, (mark = ['-', '-'] ∨ mark = ['#']) ∧ t.text = mark ++ body ∧
      ∀ (o : Options), o.dialect = .standard → ∀ (s : Draft) (index : Nat) (rest : List Token),
        ∃ s' x, s.step o index t rest = .ok s' ∧
          s'.page.text = s.page.text ++ x ++ '\n' :: s'.levels.indentation o.unit ∧
          tokenize .standard x = .ok [commentToken x] ∧
          ink x = ['/', '*'] ++ ink body ++ ['*', '/']) ∧
    (t.kind = .blockComment → ∀ indentation : Text, indentation.isAllBlank = true →
      tokenize .standard (Comment.reindent indentation t.text) =
        .ok [commentToken (Comment.reindent indentation t.text)] ∧
      ink (Comment.reindent indentation t.text) = ink t.text) := by
  have hread := (tokensFrom_eq_ok_iff Dialect.standard_substantial).mp h
  obtain ⟨ctx, k, l, hlexed, hkind⟩ := hread.exists_lexed t ht
  constructor
  · intro hk
    obtain ⟨mark, body, hmark, htext⟩ := hlexed.exists_mark (hkind.trans hk)
    refine ⟨mark, body, hmark, htext, ?_⟩
    intro o ho s index rest
    obtain ⟨s', hstep, hpage⟩ := Draft.step_lineComment hk o s index rest
    refine ⟨s', _, hstep, hpage, (Comment.isBlockComment_ofLine _ _).tokenize, ?_⟩
    rw [ho, htext]
    exact ink_ofLine hmark body
  · intro hk indentation hblank
    have hcomment : IsBlockComment t.text := by
      have hproper := hlexed.proper rfl hkind.symm
      rwa [Token.Proper, hk] at hproper
    exact ⟨(Comment.isBlockComment_reindent hblank hcomment).tokenize, Comment.ink_reindent hblank t.text⟩

theorem comment_stays_one_token_of_closers :
    ∃ ts t u, tokenize .standard "#*/\n/*/\n  x*/".toList = .ok ts ∧ t ∈ ts ∧ u ∈ ts ∧
      t.kind = .lineComment ∧ u.kind = .blockComment ∧
      (∃ s' x, Draft.step {} {} 0 t [u] = .ok s' ∧
        s'.page.text = x ++ '\n' :: s'.levels.indentation [' ', ' '] ∧
        tokenize .standard x = .ok [commentToken x] ∧ ink x = "/**/*/".toList) ∧
      tokenize .standard (Comment.reindent ['\t'] u.text) =
        .ok [commentToken (Comment.reindent ['\t'] u.text)] := by
  have hread : Reads Dialect.standard.lexicon .start .start ("#*/\n".toList ++ ("/*/\n  x*/".toList ++ []))
      [Lexeme.token ⟨.lineComment, 4, none⟩ .start "#*/\n".toList,
        Lexeme.token ⟨.blockComment, 9, none⟩ (Position.start.advance "#*/\n".toList) "/*/\n  x*/".toList] :=
    .cons rfl rfl (by simp) (.cons rfl rfl (by simp) (.nil _ _))
  have hspec := comment_stays_one_token _ _ (tokensFrom_of_reads hread)
  obtain ⟨mark, body, hmark, htext, hline⟩ := (hspec _ List.mem_cons_self).1 rfl
  obtain ⟨s', x, hstep, hpage, htoken, hink⟩ := hline {} rfl {} 0 [_]
  have hbody : body = "*/\n".toList := by
    rcases hmark with rfl | rfl
    · exact absurd (List.cons.inj htext).1 (by decide)
    · exact (List.cons.inj htext).2.symm
  refine ⟨_, _, _, tokensFrom_of_reads hread, List.mem_cons_self, List.mem_cons_of_mem _ List.mem_cons_self, rfl,
    rfl, ⟨s', x, hstep, hpage, htoken, ?_⟩, ?_⟩
  · rw [hink, hbody]
    rfl
  · exact ((hspec _ (List.mem_cons_of_mem _ List.mem_cons_self)).2 rfl ['\t'] rfl).1

end SqlLayout
