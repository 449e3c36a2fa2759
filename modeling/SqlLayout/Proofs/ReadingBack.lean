import SqlLayout.Proofs.Seams

/-!
# Reading pieces back

Pieces that do not collide are read back from their page. The induction goes along the tokens of the
query; `InStep` says how the context on the page and the context in the query belong together.
-/

namespace SqlLayout

open Lexeme

/-! ### The words of a page -/

section

variable {ctx : Context} {t : Token} {ts : List Token}

lemma Lexed.isAllBlank {x s : Text} {l : Lexeme} (h : Lexed ctx x s l) (hk : l.kind = .blank) :
    x.isAllBlank = true := by
  have hb : x.startsBlank = true := by
    rcases h.cases with ⟨-, hb⟩ | ⟨hl', -⟩ | ⟨hl', -⟩ | ⟨hl', -⟩ | ⟨hp, hplain⟩
    · exact hb
    · simp [hl'] at hk
    · simp [hl'] at hk
    · simp [hl'] at hk
    · exact absurd hk (Rule.of_plain hp hplain h.size h.ne_nil).kind_cases.1
  have heq := h.eq
  rw [lexeme, if_pos (by rw [Text.startsBlank_append h.ne_nil, hb])] at heq
  obtain rfl := Except.ok.inj heq
  have htake := eq_of_prefix_of_length (List.takeWhile_prefix _) h.size
  rw [← htake, Text.isAllBlank]
  exact List.all_takeWhile

lemma Heads.isAllBlank (h : Heads ctx t ts) (hk : t.kind = .blank) : t.text.isAllBlank = true := by
  obtain ⟨l, hl, hkind⟩ := h
  exact hl.isAllBlank (hkind.trans hk)

lemma Heads.comment_text (h : Heads ctx t ts) (hc : t.kind.isComment = true) :
    t.text ≠ ['.'] ∧ ∀ k, Text.spelled (t.text ++ k) = [] := by
  obtain ⟨l, hl, hkind⟩ := h
  have hhead : ∃ c r, t.text = c :: r ∧ c ∈ ['-', '#', '/'] := by
    obtain ⟨c, r, hx⟩ := List.exists_cons_of_ne_nil hl.ne_nil
    refine ⟨c, r, hx, ?_⟩
    rcases hl.cases with ⟨hl', -⟩ | ⟨-, hhead, -⟩ | ⟨-, body, hbody, -⟩ | ⟨hl', -⟩ | ⟨hp, hplain⟩
    · simp [← hkind, hl', Kind.isComment] at hc
    · rcases hhead with hhead | hhead <;> simp_all
    · obtain ⟨rfl, -⟩ := List.cons.inj (hx.symm.trans hbody)
      simp
    · simp [← hkind, hl', Kind.isComment] at hc
    · have := (Rule.of_plain hp hplain hl.size hl.ne_nil).kind_cases.2.1
      simp [hkind, hc] at this
  obtain ⟨c, r, hx, hmem⟩ := hhead
  have hsigns : ∀ c ∈ ['-', '#', '/'], Text.isWordChar c = false ∧ Text.isBlank c = false ∧ c ≠ '.' :=
    List.all_iff_forall_prop.mp (by decide)
  rw [hx]
  exact ⟨fun h => (hsigns c hmem).2.2 (List.cons.inj h).1,
    fun k => Text.spelled_eq_nil (t := c :: (r ++ k)) (hsigns c hmem).1 (hsigns c hmem).2.1⟩

end

namespace Text

lemma runsOn_of_words {x : Text} (hx : x.Solid)
    (hall : (x.all fun c => isWordChar c || isBlank c) = true) : x.runsOn = true := by
  rw [List.all_eq_true] at hall
  obtain ⟨u, c, rfl, hc⟩ := hx.exists_concat
  have hend : endsWord (u ++ [c]) = true := by
    rw [endsWord_concat]
    simpa [hc] using hall c (by simp)
  have hhead : (u ++ [c]).head? ≠ some '?' := by
    intro h
    have hquery := hall '?' (List.mem_of_mem_head? h)
    exact absurd hquery (by decide)
  simp only [runsOn, hend, Bool.true_and, Bool.or_eq_true, bne_iff_ne]
  exact .inl (.inl hhead)

lemma all_collapse {x : Text} (hall : (x.all fun c => isWordChar c || isBlank c) = true) :
    (x.collapse.all fun c => isWordChar c || isBlank c) = true := by
  rw [List.all_eq_true] at hall ⊢
  intro c hc
  rcases mem_collapse hc with rfl | ⟨hmem, -⟩
  · decide
  · exact hall c hmem

end Text

/-- The characters that strings and block comments end with. -/
def closingSigns : List Char :=
  ['/', '\x22', '\x27', '\x60', ']']

lemma Text.not_runsOn_of_closing {x : Text} {c : Char} (hx : x.getLast? = some c)
    (hc : c ∈ closingSigns) : x.runsOn = false := by
  have hsigns : ∀ c ∈ closingSigns, isWordChar c = false ∧ c ∉ [':', '@'] :=
    List.all_iff_forall_prop.mp (by decide)
  have hend : x.endsWord = false := by simp [endsWord, hx, (hsigns c hc).1]
  have hne : ∀ d ∈ [':', '@'], x ≠ [d] := by
    rintro d hd rfl
    obtain rfl : d = c := by simpa using hx
    exact (hsigns d hc).2 hd
  simp [runsOn, hend, hne]

lemma IsString.getLast? {x s : Text} (h : IsString x s) : ∃ c ∈ closingSigns, x.getLast? = some c := by
  obtain ⟨opener, inner, rfl, hmem, hsize, -⟩ := h
  have hquotes : ∀ q ∈ Dialect.standard.quotes, closerOf q ∈ closingSigns := by decide
  obtain ⟨hlast, -⟩ := quoteSize?_spec hsize
  exact ⟨_, hquotes opener hmem, by simp [List.getLast?_append, hlast]⟩

lemma IsString.not_runsOn {x s : Text} (h : IsString x s) : x.runsOn = false := by
  obtain ⟨c, hc, hlast⟩ := h.getLast?
  exact Text.not_runsOn_of_closing hlast hc

lemma Rule.words_of_keyword {ctx : Context} {x s : Text} {kind : Kind} {role : Role}
    (h : Rule ctx x s kind) (hk : kind = .keyword role) :
    (x.all fun c => Text.isWordChar c || Text.isBlank c) = true := by
  cases h with
  | keyword role' ws _ _ _ hmem hn => exact (phraseSize?_shape (Dialect.standard_spelt hmem) hn).1
  | word => exact absurd hk (wordKind_ne_keyword _ _ _)
  | _ => simp at hk

lemma Heads.spelled {ctx : Context} {t : Token} {ts : List Token} {k : Text} (h : Heads ctx t ts)
    (hb : t.kind ≠ .blank) (hc : t.kind.isComment = false) (hf : Follows t.written k)
    (hk : k.spelled = (source ts).spelled) :
    (t.written ++ k).spelled = (t.text ++ source ts).spelled := by
  obtain ⟨l, hl, hkind⟩ := h
  have hsolid : t.text.Solid := hl.solid (by rwa [hkind]) (by rwa [hkind])
  by_cases hall : (t.text.all fun c => Text.isWordChar c || Text.isBlank c) = true
  · have hwritten : t.written.Solid ∧
        (t.written.all fun c => Text.isWordChar c || Text.isBlank c) = true ∧
        t.written.words = t.text.words := by
      rw [Token.written]
      split
      · exact ⟨hsolid.collapse, Text.all_collapse hall, Text.words_collapse _⟩
      · exact ⟨hsolid, hall, rfl⟩
    have hnext : (source ts).startsWord = false := by
      have hrun := Text.runsOn_of_words hsolid hall
      rcases Heads.content ⟨l, hl, hkind⟩ hb hc with ⟨-, hq⟩ | ⟨-, hrule⟩
      · simp [hq.not_runsOn] at hrun
      · exact hrule.not_startsWord hrun
    rw [Text.spelled_append hwritten.2.1 (hf.word (Text.runsOn_of_words hwritten.1 hwritten.2.1)),
      Text.spelled_append hall hnext, hwritten.2.2, hk]
  · have hnot : ∀ role, t.kind ≠ .keyword role := by
      intro role hr
      rcases Heads.content ⟨l, hl, hkind⟩ hb hc with ⟨hq, -⟩ | ⟨-, hrule⟩
      · simp [hr] at hq
      · exact hall (hrule.words_of_keyword hr)
    rw [Piece.written_of_not_keyword hnot, Text.spelled_append_of_stop (by simpa using hall),
      Text.spelled_append_of_stop (by simpa using hall)]

lemma spelled_comma (k : Text) : Text.spelled (',' :: k) = [] :=
  Text.spelled_eq_nil (t := ',' :: k) (show Text.isWordChar ',' = false by decide)
    (show Text.isBlank ',' = false by decide)

lemma Typeset.spelled {ctx : Context} {n m : Nat} {ts : List Token} {ps : List Piece}
    (h : Typeset ctx n ts ps m) (hchain : ps.IsChain Seam) (hleg : Legible ps) :
    (joined ps).spelled = if n = 0 then (source ts).spelled else [] := by
  have hsound := h.sound
  induction h with
  | done ctx n => simp [Text.spelled, Text.words, source]
  | blank ht hk _ ih =>
    rw [ih hchain hleg hsound, source_cons, Text.spelled_blank_append (ht.isAllBlank hk)]
  | hold ht hk htext _ ih =>
    rw [ih hchain hleg hsound, if_neg (by omega), source_cons, htext, List.singleton_append,
      spelled_comma, ite_self]
  | release gap hgap _ ih =>
    rw [if_neg (by omega), joined_cons, Text.spelled_blank_append hgap, List.singleton_append,
      spelled_comma]
  | comment gap text ht hc hgap hblock _ ih =>
    obtain ⟨body, rfl, -⟩ := hblock
    rw [joined_cons, Text.spelled_blank_append hgap, source_cons, (ht.comment_text hc).2, ite_self]
    exact Text.spelled_eq_nil (show Text.isWordChar '/' = false by decide)
      (show Text.isBlank '/' = false by decide)
  | set gap ht hb hc hgap _ ih =>
    have hf := follows_of_legible (hsound _ (by simp)) (fun q hq => hsound q (by simp [hq])) hchain hleg
    rw [if_pos rfl, joined_cons, Text.spelled_blank_append hgap, source_cons]
    refine ht.spelled hb hc hf ?_
    rw [ih hchain.tail hleg.tail fun q hq => hsound q (by simp [hq]), if_pos rfl]

/-! ### Reading one token back -/

lemma IsString.not_isLoose {x s : Text} (h : IsString x s) : x.isLoose = false := by
  obtain ⟨opener, inner, rfl, hmem, -, -⟩ := h
  have hquotes : ∀ q ∈ Dialect.standard.quotes, q ≠ [] ∧
      (q.head?.all fun c => decide (c ∉ ['.', ',', '(', 'C', 'C'.toLower])) = true := by decide
  obtain ⟨hne, hhead⟩ := hquotes opener hmem
  obtain ⟨c, r, rfl⟩ := List.exists_cons_of_ne_nil hne
  have hc := of_decide_eq_true hhead
  cases hl : Text.isLoose (c :: r ++ inner) with
  | false => rfl
  | true =>
    simp only [Text.isLoose, Bool.or_eq_true, beq_iff_eq] at hl
    rcases hl with ((hl | hl) | hl) | hl
    · simp [(List.cons.inj hl).1] at hc
    · simp [(List.cons.inj hl).1] at hc
    · simp [(List.cons.inj hl).1] at hc
    · obtain ⟨d, y, hd, hletter, -⟩ := Text.head_of_upper (.inl rfl) hl
      obtain ⟨rfl, -⟩ := List.cons.inj hd
      rcases hletter with rfl | rfl <;> simp at hc

lemma IsString.of_seam {x s k : Text} (h : IsString x s) (hseam : x.isLoose = true ∨ k.isSeam = true) :
    IsString x k := by
  have hk : k.isSeam = true := hseam.resolve_left (by simp [h.not_isLoose])
  obtain ⟨opener, inner, rfl, hmem, hsize, hlex⟩ := h
  have hquotes : ∀ q ∈ Dialect.standard.quotes, Text.isBlank (closerOf q) = false ∧
      closerOf q ∉ seamSigns := by decide
  obtain ⟨hblank, hsign⟩ := hquotes opener hmem
  have hhead : k.head? ≠ some (closerOf opener) := by
    intro h
    rcases Text.isSeam_head hk h with h | h
    · simp [hblank] at h
    · exact hsign h
  exact ⟨opener, inner, rfl, hmem, (quoteSize?_spec hsize).2 k hhead, hlex⟩

lemma IsString.lexeme {x s : Text} (h : IsString x s) (ctx : Context) :
    lexeme Dialect.standard.lexicon ctx (x ++ s) = .ok { kind := .quoted, size := x.length } := by
  obtain ⟨opener, inner, rfl, hmem, hsize, hlex⟩ := h
  have hne : opener ≠ [] := Dialect.standard_substantial.quotes _ hmem
  rw [hlex ctx s, Lexeme.string, if_neg (by simpa using hne), List.length_append]
  simp only [hsize]

lemma IsString.reread {x s k : Text} (h : IsString x s) (hseam : x.isLoose = true ∨ k.isSeam = true)
    (ctx : Context) : ∃ l, SqlLayout.lexeme Dialect.standard.lexicon ctx (x ++ k) = .ok l ∧
      l.size = x.length ∧ l.kind = .quoted :=
  ⟨_, (h.of_seam hseam).lexeme ctx, rfl, rfl⟩

namespace Rule

variable {ctx : Context} {x s : Text} {kind : Kind}

lemma unsigned_of_afterOperand (h : Rule ctx x s kind) (hk : kind = .number)
    (ho : ctx.afterOperand = true) : x.head? ≠ some '-' := by
  cases h with
  | number _ hsign => exact hsign ho
  | word => exact absurd hk (wordKind_ne_number _ _)
  | _ => simp at hk

lemma kind_ne_quoted (h : Rule ctx x s kind) : kind ≠ .quoted := by
  cases h
  case word =>
    rcases wordKind_cases ctx.afterDot x with h | ⟨-, h, -⟩ | ⟨-, h, -⟩ <;> simp [h]
  all_goals simp

lemma of_startsWord (h : Rule ctx x s kind) (hx : x.startsWord = true) (hk : kind ≠ .number) :
    (∃ role ws, kind = .keyword role ∧ ctx.afterDot = false ∧
      (role, ws) ∈ Dialect.standard.lexicon.phrases ∧ phraseSize? ws (x ++ s) = some x.length ∧
      keyword? Dialect.standard.lexicon ctx (x ++ s) =
        some { kind := .keyword role, size := x.length }) ∨
    (kind = wordKind ctx.afterDot x ∧ (∀ c ∈ x, Text.isWordChar c = true) ∧
      numberSize? (x ++ s) = none ∧ keyword? Dialect.standard.lexicon ctx (x ++ s) = none) := by
  cases h with
  | keyword role ws hdot _ _ hmem hn hkey => exact .inl ⟨role, ws, rfl, hdot, hmem, hn, hkey⟩
  | word _ hword _ hnum hkey => exact .inr ⟨rfl, hword, hnum, hkey⟩
  | number => exact absurd rfl hk
  | operator _ hw => simp [hw] at hx
  | opening hx' | closing hx' | index _ hx' =>
    subst hx'
    exact absurd hx (by rw [Text.startsWord_cons]; decide)
  | quotedName c q y hc _ hx' | bareName c y hc hx' =>
    subst hx'
    rw [Text.startsWord_cons] at hx
    rcases hc with rfl | rfl <;> exact absurd hx (by decide)

end Rule

/-- What reading a token again may make of its kind: a bracket or a keyword becomes a name only directly
behind a dot, and the kind stays unless a dot came to the token or went away from it. -/
structure RereadAs (ctx ctx' : Context) (t : Token) (kind : Kind) : Prop where
  operand : kind.isOperand = true → t.kind.isOperand = true ∨ ctx'.afterDot = true ∧
    t.written.startsWord = true ∧ (t.kind = .opening ∨ ∃ role, t.kind = .keyword role)
  keeps : (ctx'.afterDot = true → t.written.startsWord = true → t.kind = .word ∨ t.kind = .number) →
    (ctx.afterDot = true → ctx'.afterDot = false → t.kind ≠ .word) → kind = t.kind

section

variable {ctx ctx' : Context} {t : Token} {ts : List Token} {k : Text}

lemma RereadAs.of_eq {kind : Kind} (h : kind = t.kind) : RereadAs ctx ctx' t kind :=
  ⟨fun ho => .inl (h ▸ ho), fun _ _ => h⟩

lemma Rule.reread_written_sign (h : Rule ctx t.text (source ts) t.kind)
    (hx : t.text.startsWord = false ∨ t.kind = .number) (hne : t.text ≠ [])
    (hp : startsPlain (t.text ++ source ts) = true) (hf : Follows t.written k)
    (ho : ctx'.afterOperand = true →
      ctx.afterOperand = true ∨ (t.kind = .number → t.written.head? ≠ some '-')) :
    ∃ l, lexeme Dialect.standard.lexicon ctx' (t.written ++ k) = .ok l ∧ l.size = t.written.length ∧
      RereadAs ctx ctx' t l.kind := by
  have hwritten : t.written = t.text := by
    refine Piece.written_of_not_keyword fun role hr => ?_
    obtain ⟨c, d, y, hx', hcw, -⟩ := h.keyword_text hr
    simp [hr, hx', hcw] at hx
  rw [hwritten] at hf ho ⊢
  have hsign : ctx'.afterOperand = true → t.kind = .number → t.text.head? ≠ some '-' :=
    fun ho' hn => (ho ho').elim (h.unsigned_of_afterOperand hn) fun h => h hn
  obtain ⟨l, hl, hsize, hkind⟩ := h.reread_sign hx hne hp hf hsign
  exact ⟨l, hl, hsize, .of_eq hkind⟩

lemma Rule.reread_written_keyword {role : Role} {ws : List Text} (hkind : t.kind = .keyword role)
    (hw : t.written.startsWord = true) (hmem : (role, ws) ∈ Dialect.standard.lexicon.phrases)
    (hn : phraseSize? ws (t.text ++ source ts) = some t.text.length)
    (hkey : keyword? Dialect.standard.lexicon ctx (t.text ++ source ts) =
      some { kind := .keyword role, size := t.text.length })
    (hf : Follows t.written k) (hspelled : (t.written ++ k).spelled = (t.text ++ source ts).spelled)
    (hsplit : ctx'.afterDot = true → ' ' ∉ t.written) :
    ∃ l, lexeme Dialect.standard.lexicon ctx' (t.written ++ k) = .ok l ∧ l.size = t.written.length ∧
      RereadAs ctx ctx' t l.kind := by
  have hwritten : t.written = t.text.collapse := by simp [Token.written, hkind]
  rw [hwritten] at hf hspelled hsplit ⊢
  obtain ⟨l, hl, hsize, hlk, hlo⟩ := Rule.reread_keyword hmem hn hkey hf hspelled hsplit
  refine ⟨l, hl, hsize, fun h => .inr ⟨hlo h, hw, .inr ⟨role, hkind⟩⟩, fun hkeep _ => ?_⟩
  cases hd : ctx'.afterDot with
  | true => simp [hkind, hd, hw] at hkeep
  | false => rw [hlk hd, hkind]

lemma Rule.reread_written_word (h : Rule ctx t.text (source ts) t.kind)
    (hkind : t.kind = wordKind ctx.afterDot t.text) (hword : ∀ c ∈ t.text, Text.isWordChar c = true)
    (hne : t.text ≠ []) (hnum : numberSize? (t.text ++ source ts) = none)
    (hkey : keyword? Dialect.standard.lexicon ctx (t.text ++ source ts) = none)
    (hp : startsPlain (t.written ++ k) = true) (hf : Follows t.written k)
    (hspelled : (t.written ++ k).spelled = (t.text ++ source ts).spelled)
    (hlong : ctx.afterDot = true → ctx'.afterDot = false → t.kind = .word →
      ∀ l, keyword? Dialect.standard.lexicon .start (t.written ++ k) = some l →
        l.size = t.written.length) :
    ∃ l, lexeme Dialect.standard.lexicon ctx' (t.written ++ k) = .ok l ∧ l.size = t.written.length ∧
      RereadAs ctx ctx' t l.kind := by
  have hwritten : t.written = t.text :=
    Piece.written_of_not_keyword fun role hr => wordKind_ne_keyword _ _ role (hkind.symm.trans hr)
  have hx : t.written.startsWord = true := by
    rw [hwritten]
    obtain ⟨c, y, hc⟩ := List.exists_cons_of_ne_nil hne
    rw [hc]
    exact hword c (by simp [hc])
  have hnumber : t.kind ≠ .number := hkind ▸ wordKind_ne_number _ _
  have hend := Text.endsWord_of_forall hne hword
  have hhead : t.text.head? ≠ some '?' := fun h =>
    absurd (hword '?' (List.mem_of_mem_head? h)) (by decide)
  have hrun : t.text.runsOn = true := by simp [Text.runsOn, hend, hhead]
  rw [hwritten] at hf hspelled hp hlong ⊢
  obtain ⟨l, hl, hsize, hlk, hlo⟩ := Rule.reread_word hword hne
    ((h.numberSize?_of_follows hf hne hend hhead).trans hnum) hkey hp (hf.word hrun)
    (fun _ => hspelled) fun hd hd' l hl =>
      hlong hd hd' (by rw [hkind, hd]; rfl) l (keyword?_of_not_afterDot hd' _ _ ▸ hl)
  refine ⟨l, hl, hsize, fun h => ?_, fun hkeep hkeep' => ?_⟩
  · rcases hlo h with h | ⟨hd, h⟩
    · exact .inl (hkind ▸ h)
    · exact .inr ⟨hd, hx, .inl (hkind.trans h)⟩
  · cases hd : ctx.afterDot <;> cases hd' : ctx'.afterDot
    · rw [hlk (.inl hd), hkind, hd, hd']
    · have hw := (hkeep hd' hx).resolve_right hnumber
      rw [hlk (.inl hd), hw, hd']
      rfl
    · exact absurd (by rw [hkind, hd]; rfl) (hkeep' hd hd')
    · rw [hlk (.inr hd'), hkind, hd, hd']

/-- A token is read back from a page as a token of the same size, given what stands behind it and
what the dots and operands before it mean. -/
lemma Heads.reread (h : Heads ctx t ts) (hb : t.kind ≠ .blank) (hc : t.kind.isComment = false)
    (hf : Follows t.written k) (hk : k.spelled = (source ts).spelled)
    (ho : ctx'.afterOperand = true →
      ctx.afterOperand = true ∨ (t.kind = .number → t.written.head? ≠ some '-'))
    (hsplit : ctx'.afterDot = true → ∀ role, t.kind = .keyword role → ' ' ∉ t.written)
    (hlong : ctx.afterDot = true → ctx'.afterDot = false → t.kind = .word →
      ∀ l, keyword? Dialect.standard.lexicon .start (t.written ++ k) = some l →
        l.size = t.written.length) :
    ∃ l, lexeme Dialect.standard.lexicon ctx' (t.written ++ k) = .ok l ∧
      l.size = t.written.length ∧ l.kind ≠ .blank ∧ l.kind.isComment = false ∧
      RereadAs ctx ctx' t l.kind := by
  have hspelled := h.spelled hb hc hf hk
  rcases h.content hb hc with ⟨hq, hstring⟩ | ⟨hp, hrule⟩
  · have hwritten : t.written = t.text := Piece.written_of_not_keyword (by simp [hq])
    rw [hwritten] at hf ⊢
    obtain ⟨l, hl, hsize, hlk⟩ := hstring.reread hf.seam ctx'
    exact ⟨l, hl, hsize, by simp [hlk], by simp [hlk, Kind.isComment], .of_eq (hlk.trans hq.symm)⟩
  · have hne : t.text ≠ [] := by
      obtain ⟨l, hl, -⟩ := h
      exact hl.ne_nil
    have hsound : Piece.Sound ⟨[], t.kind, t.written⟩ := ⟨rfl, .inr ⟨ctx, t, ts, h, hb, hc, rfl, rfl⟩⟩
    have hp' : startsPlain (t.written ++ k) = true := by
      exact hsound.startsPlain hc hrule.kind_ne_quoted hf.seam
    have hread : ∃ l, lexeme Dialect.standard.lexicon ctx' (t.written ++ k) = .ok l ∧
        l.size = t.written.length ∧ RereadAs ctx ctx' t l.kind := by
      by_cases hx : t.text.startsWord = false ∨ t.kind = .number
      · exact hrule.reread_written_sign hx hne hp hf ho
      · rw [not_or, Bool.not_eq_false] at hx
        rcases hrule.of_startsWord hx.1 hx.2 with
          ⟨role, ws, hkind, -, hmem, hn, hkey⟩ | ⟨hkind, hword, hnum, hkey⟩
        · have hw : t.written.startsWord = true := by
            obtain ⟨c, d, y, hx', hcw, -⟩ := hsound.keyword hkind
            rw [show t.written = c :: d :: y from hx']
            exact hcw
          exact Rule.reread_written_keyword hkind hw hmem hn hkey hf hspelled fun hd => hsplit hd role hkind
        · exact hrule.reread_written_word hkind hword hne hnum hkey hp' hf hspelled hlong
    obtain ⟨l, hl, hsize, hreread⟩ := hread
    have hplain : l = plain Dialect.standard.lexicon ctx' (t.written ++ k) := by
      rw [lexeme_of_startsPlain hp'] at hl
      exact (Except.ok.inj hl).symm
    obtain ⟨hlb, hlc, -⟩ := (Rule.of_plain hp' hplain hsize hsound.solid.ne_nil).kind_cases
    exact ⟨l, hl, hsize, hlb, hlc, hreread⟩

end

/-! ### Reading pieces back -/

/-- The context past the blanks in front of a piece. -/
def Context.pastGap (ctx : Context) (gap : Text) : Context :=
  if gap = [] then ctx else ctx.next .blank gap

/-- Pieces are read back from their text, each one with its size, and comments as comments; the kinds
are those that are read. -/
inductive ReadsBack : Context → List Piece → List Kind → Prop
  | nil (ctx : Context) : ReadsBack ctx [] []
  | cons {ctx : Context} {q : Piece} {rest : List Piece} {l : Lexeme} {ks : List Kind} :
      lexeme Dialect.standard.lexicon (ctx.pastGap q.gap) (q.text ++ joined rest) = .ok l →
      l.size = q.text.length → l.kind.isComment = q.kind.isComment →
      ReadsBack ((ctx.pastGap q.gap).next l.kind q.text) rest ks →
      ReadsBack ctx (q :: rest) (l.kind :: ks)

/-- A piece behind a dot keeps its kind: directly behind it stands a name, and no name is wrapped
away from it. -/
def Keeps (p q : Piece) : Prop :=
  p.text = ['.'] →
    if q.gap = [] then q.text.startsWord = true → q.kind = .word ∨ q.kind = .number
    else q.kind ≠ .word

lemma IsBlockComment.lexeme {x : Text} (h : IsBlockComment x) (ctx : Context) (k : Text) :
    lexeme Dialect.standard.lexicon ctx (x ++ k) =
      .ok { kind := .blockComment, size := x.length } := by
  obtain ⟨body, rfl, hfind⟩ := h
  have htext : ['/', '*'] ++ (body ++ ['*', '/']) ++ k = '/' :: '*' :: (body ++ ['*', '/'] ++ k) := rfl
  rw [htext, lexeme_cons, if_neg (by decide), if_neg (by simp), if_pos (by simp), List.drop_one,
    List.tail_cons, Lexeme.blockComment, hfind]
  simp

section

variable {ctx : Context} {gap : Text}

lemma Context.afterOperand_pastGap : (ctx.pastGap gap).afterOperand = ctx.afterOperand := by
  rw [pastGap]
  split <;> rfl

lemma Context.afterDot_pastGap (hgap : gap.isAllBlank = true) :
    (ctx.pastGap gap).afterDot = true ↔ gap = [] ∧ ctx.afterDot = true := by
  rw [pastGap]
  split
  · next h => simp [h]
  · next h =>
    have hne : gap ≠ ['.'] := by
      rintro rfl
      exact absurd hgap (by decide)
    simp [Context.next, h, hne]

end

/-- What the page read so far means for the next piece, compared with the query. -/
structure InStep (ctx ctx' : Context) (n : Nat) (last : Option Piece) (ps : List Piece) : Prop where
  operand : n = 0 → ctx'.afterOperand = true →
    ctx.afterOperand = true ∨ ∀ q ∈ ps.head?, q.kind = .number → q.text.head? ≠ some '-'
  dot : ctx.afterDot = true → n = 0 ∧ ∃ p ∈ last, p.text = ['.']
  dot' : ctx'.afterDot = true ↔ ∃ p ∈ last, p.text = ['.']

lemma Legible.of_last {last : Option Piece} {ps : List Piece} (h : Legible (last.toList ++ ps)) :
    Legible ps := by
  cases last with
  | none => exact h
  | some p => exact h.tail

section

variable {ctx ctx' : Context} {last : Option Piece} {t : Token} {gap : Text} {ps : List Piece}
  (hstep : InStep ctx ctx' 0 last (⟨gap, t.kind, t.written⟩ :: ps)) (hgap : gap.isAllBlank = true)
include hstep hgap

lemma InStep.dot_of_pastGap (h : (ctx'.pastGap gap).afterDot = true) :
    gap = [] ∧ ∃ p ∈ last, p.text = ['.'] :=
  ((Context.afterDot_pastGap hgap).mp h).imp_right hstep.dot'.mp

lemma InStep.dot_of_wrapped (h : ctx.afterDot = true) (h' : (ctx'.pastGap gap).afterDot = false) :
    gap ≠ [] ∧ ∃ p ∈ last, p.text = ['.'] := by
  refine ⟨fun hnil => ?_, (hstep.dot h).2⟩
  rw [(Context.afterDot_pastGap hgap).mpr ⟨hnil, hstep.dot'.mpr (hstep.dot h).2⟩] at h'
  simp at h'

lemma InStep.set (hb : t.kind ≠ .blank)
    (hfree : ∀ p ∈ last, ¬Collision p ⟨gap, t.kind, t.written⟩ ps) {kind : Kind} (hkind : kind ≠ .blank)
    (hreread : RereadAs ctx (ctx'.pastGap gap) t kind) :
    InStep (ctx.next t.kind t.text) ((ctx'.pastGap gap).next kind t.written) 0
      (some ⟨gap, t.kind, t.written⟩) ps := by
  refine ⟨fun _ h => ?_, fun h => ⟨rfl, _, rfl, ?_⟩, by simp [Context.next]⟩
  · simp only [Context.next, hkind, hb, if_false] at h ⊢
    rcases hreread.operand h with h | ⟨hd, hw, hk⟩
    · exact .inl h
    · obtain ⟨hnil, p, hp, hpt⟩ := hstep.dot_of_pastGap hgap hd
      exact .inr fun r hr hn hm => hfree p hp (.subtraction r hnil hpt hw hk hr hn hm)
  · have htext : t.text = ['.'] := by simpa [Context.next] using h
    simp only [Token.written, htext]
    split <;> rfl

lemma InStep.kind_eq (hkeeps : ∀ p ∈ last, Keeps p ⟨gap, t.kind, t.written⟩) {kind : Kind}
    (hreread : RereadAs ctx (ctx'.pastGap gap) t kind) : kind = t.kind := by
  apply hreread.keeps
  · intro hd hw
    obtain ⟨hnil, p, hp, hpt⟩ := hstep.dot_of_pastGap hgap hd
    have hpair := hkeeps p hp hpt
    rw [if_pos hnil] at hpair
    exact hpair hw
  · intro hd hd'
    obtain ⟨hne, p, hp, hpt⟩ := hstep.dot_of_wrapped hgap hd hd'
    have hpair := hkeeps p hp hpt
    rwa [if_neg hne] at hpair

end

/-- Pieces that do not collide are read back. -/
lemma Typeset.readsBack {ctx ctx' : Context} {n m : Nat} {ts : List Token} {ps : List Piece}
    (h : Typeset ctx n ts ps m) (last : Option Piece) (hlast : ∀ p ∈ last, p.Sound)
    (hchain : (last.toList ++ ps).IsChain Seam) (hleg : Legible (last.toList ++ ps))
    (hstep : InStep ctx ctx' n last ps) :
    ∃ ks, ReadsBack ctx' ps ks ∧
      ((last.toList ++ ps).IsChain Keeps → ks = ps.map Piece.kind) := by
  induction h generalizing ctx' last with
  | done ctx n => exact ⟨[], .nil ctx', fun _ => rfl⟩
  | blank ht hk _ ih =>
    refine ih last hlast hchain hleg ⟨?_, ?_, hstep.dot'⟩
    · simpa [Context.next, hk] using hstep.operand
    · intro hdot
      have hblank := ht.isAllBlank hk
      simp only [Context.next, beq_iff_eq] at hdot
      rw [hdot] at hblank
      exact absurd hblank (by decide)
  | hold ht hk htext _ ih =>
    exact ih last hlast hchain hleg ⟨by simp, by simp [Context.next, htext], hstep.dot'⟩
  | @release ctx n m ts ps gap hgap hrest ih =>
    have hsound := (Typeset.release gap hgap hrest).sound
    have hnext : InStep ctx ((ctx'.pastGap gap).next .operator [',']) n (some ⟨gap, .operator, [',']⟩) ps :=
      ⟨by simp [Context.next, Kind.isOperand], fun hdot => absurd (hstep.dot hdot).1 (by omega),
        by simp [Context.next]⟩
    obtain ⟨ks, hks, hkeep⟩ := ih (some _) (by simpa using hsound _ (by simp)) hchain.right_of_append
      hleg.of_last hnext
    exact ⟨_, .cons (lexeme_comma _ _) rfl rfl hks, fun h => congrArg _ (hkeep h.right_of_append)⟩
  | @comment ctx n m t ts ps gap text ht hc hgap hblock hrest ih =>
    have hsound := (Typeset.comment gap text ht hc hgap hblock hrest).sound
    have hdot : text ≠ ['.'] := by
      obtain ⟨body, rfl, -⟩ := hblock
      simp
    have hnext : InStep (ctx.next t.kind t.text) ((ctx'.pastGap gap).next .blockComment text) n
        (some ⟨gap, .blockComment, text⟩) ps :=
      ⟨by simp [Context.next, Kind.isOperand], by simp [Context.next, (ht.comment_text hc).1],
        by simp [Context.next, hdot]⟩
    obtain ⟨ks, hks, hkeep⟩ := ih (some _) (by simpa using hsound _ (by simp)) hchain.right_of_append
      hleg.of_last hnext
    exact ⟨_, .cons (hblock.lexeme _ _) rfl rfl hks, fun h => congrArg _ (hkeep h.right_of_append)⟩
  | @set ctx m t ts ps gap ht hb hc hgap hrest ih =>
    have hsound := (Typeset.set gap ht hb hc hgap hrest).sound
    have hchain' : (⟨gap, t.kind, t.written⟩ :: ps).IsChain Seam := hchain.right_of_append
    have hleg' : Legible (⟨gap, t.kind, t.written⟩ :: ps) := hleg.of_last
    have hf := follows_of_legible (hsound _ (by simp)) (fun q hq => hsound q (by simp [hq])) hchain' hleg'
    have hspelled : (joined ps).spelled = (source ts).spelled := by
      simpa using hrest.spelled hchain'.tail hleg'.tail
    have hfree : ∀ p ∈ last, ¬Collision p ⟨gap, t.kind, t.written⟩ ps := by
      rintro p hp
      obtain rfl : last = some p := by simpa using hp
      exact hleg.1
    obtain ⟨l, hl, hsize, hlb, hlc, hreread⟩ := ht.reread hb hc hf hspelled
      (fun h => (hstep.operand rfl (Context.afterOperand_pastGap.symm.trans h)).imp_right
        fun h => h _ rfl)
      (fun hd role hk hsp => by
        obtain ⟨hnil, p, hp, hpt⟩ := hstep.dot_of_pastGap hgap hd
        exact hfree p hp (.splitKeyword role hnil hpt hk hsp))
      (fun hd hd' hk l hl => by
        obtain ⟨hne, p, hp, hpt⟩ := hstep.dot_of_wrapped hgap hd hd'
        exact Decidable.byContradiction fun h => hfree p hp (.wrappedName l hne hpt hk hl h))
    obtain ⟨ks, hks, hkeep⟩ := ih (some _) (by simpa using hsound _ (by simp)) hchain' hleg'
      (hstep.set hgap hb hfree hlb hreread)
    refine ⟨_, .cons hl hsize (hlc.trans hc.symm) hks, fun h => ?_⟩
    have hkeeps : ∀ p ∈ last, Keeps p ⟨gap, t.kind, t.written⟩ := by
      rintro p hp
      obtain rfl : last = some p := by simpa using hp
      exact (List.isChain_cons_cons.mp h).1
    rw [List.map_cons, hkeep h.right_of_append, hstep.kind_eq hgap hkeeps hreread]

end SqlLayout
