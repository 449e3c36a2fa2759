import SqlLayout.Proofs.Growth
import SqlLayout.Proofs.Lockstep

/-!
# Formatting a formatted query

A formatted query whose page can be read back stays as it is when it is formatted again exactly if its
comments are steady and no bracket is drawn up to the comma in front of it. The last of these is the
weak point: a comma at the start of a line and the bracket behind it have no blank between them, so
that the second run takes the bracket, and with it the comma, up to the line before. The two runs go in
step up to the first token that does not stay, and what that token writes is on the page to the end.
-/

namespace SqlLayout

/-- Whether a comment stays as it is when it is moved a second time: lines without ink do not count
for its margin. -/
def Comment.isSteady (x : Text) : Bool :=
  margin ((Text.lines x).2.filter fun l => !l.isAllBlank) == margin (Text.lines x).2

lemma Reads.proper {ctx : Context} {p : Position} {x : Text} {ts : List Token}
    (h : Reads Dialect.standard.lexicon ctx p x ts) : ∀ t ∈ ts, t.Proper := by
  intro t ht
  obtain ⟨_, _, l, hlexed, hkind⟩ := h.exists_lexed t ht
  exact hlexed.proper rfl hkind.symm

lemma flush_behindCommas (gap : Text) (kind : Kind) (text : Text) (n : Nat) (ps : List Piece) :
    flush (behindCommas gap kind text n ++ ps) = behindCommas [] kind text n ++ ps := by
  cases n <;> rfl

lemma kind_flush (ps : List Piece) : (flush ps).map Piece.kind = ps.map Piece.kind := by
  cases ps <;> rfl

namespace Draft

/-- Whether no bracket of an inline block stands behind blanks that follow a comma held back, unless
nothing was written before. -/
def bracketsStay (o : Options) (s : Draft) (index : Nat) : List Token → Bool
  | [] => true
  | t :: ts =>
    !(t.kind == .opening && s.held != [] && s.previous == some .blank && s.text != [] &&
      InlineBlock.judge o.inlineLimit (t :: ts) == .fits) &&
    match s.step o index t ts with
    | .error _ => true
    | .ok s' => s'.bracketsStay o (index + 1) ts

section

variable {o : Options} {s u : Draft} {t : Token} {index : Nat} {ts : List Token}

lemma text_append_tail (h : s.text ≠ []) : s.page.text.trimStart = s.text ++ s.tail := by
  rw [← body_append_tail, Text.trimStart_append, ← text_eq, if_neg h]

lemma body_beforeBracket (s : Draft) : s.beforeBracket.body = s.body := by
  unfold beforeBracket
  split
  · rfl
  · exact body_trimEnd s

lemma page_after_opening (hk : t.kind = .opening)
    (h : 0 < s.inlineDepth ∨ InlineBlock.judge o.inlineLimit (t :: ts) = .fits) :
    (s.after o index t ts).page = s.beforeBracket.page.append (s.held ++ t.text) := by
  simp only [after, placed, hk]
  rw [page_opening (s := { s with held := [] }) h, page_beforeBracket_of_held]

lemma gapTo_opening (hk : t.kind = .opening) (ht : t.Proper) (hheld : ∀ c ∈ s.held, c = ',')
    (h : 0 < s.inlineDepth ∨ InlineBlock.judge o.inlineLimit (t :: ts) = .fits) :
    s.gapTo (s.after o index t ts) = s.beforeBracket.tail := by
  have hsolid : t.text.Solid := by simpa [Token.Proper, hk] using ht
  have hsolid' := hsolid.commas_append hheld
  have hsets := (sets_write s.beforeBracket hsolid').to_page (u := s.after o index t ts)
    (page_after_opening hk h).symm
  have hsame : Sets s (s.after o index t ts) (s.held ++ t.text) s.beforeBracket.tail True True :=
    (hsets.mono (fun _ => trivial) id).of_same (body_beforeBracket s) fun _ => .inl trivial
  exact gapTo_of_sets hsame hsolid'.head hsolid'.ne_nil

/-- Whether a token is laid out in the same way again. -/
def Stays (o : Options) (s : Draft) (t : Token) (ts : List Token) : Prop :=
  (t.kind = .blockComment → Comment.isSteady t.text = true) ∧
  (t.kind = .opening → s.held ≠ [] → s.previous = some .blank → s.text ≠ [] →
    InlineBlock.judge o.inlineLimit (t :: ts) ≠ .fits)

lemma steady_bracketsStay_cons (hbind : o.bindings = .none) (ht : t.Proper) :
    ((∀ v ∈ t :: ts, v.kind = .blockComment → Comment.isSteady v.text = true) ∧
        s.bracketsStay o index (t :: ts) = true) ↔
      s.Stays o t ts ∧ (∀ v ∈ ts, v.kind = .blockComment → Comment.isSteady v.text = true) ∧
        (s.after o index t ts).bracketsStay o (index + 1) ts = true := by
  rw [bracketsStay, step_eq_after hbind ht, List.forall_mem_cons, Stays]
  simp only [Bool.and_eq_true, Bool.not_eq_true', Bool.and_eq_false_iff, bne_eq_false_iff_eq,
    beq_eq_false_iff_ne, ne_eq]
  tauto

end

lemma added_of_set {o : Options} {s : Draft} {t : Token} (ht : t.Proper) (hb : t.kind ≠ .blank)
    (hc : t.kind.isComment = false)
    (hcomma : t.kind = .operator → t.text = [','] → 0 < s.inlineDepth ∨ s.inLimit = true)
    (index : Nat) (ts : List Token) :
    s.added o t (s.after o index t ts) =
      behindCommas (s.gapTo (s.after o index t ts)) t.kind t.written s.held.length := by
  have hreleased := held_after_eq_nil (o := o) ht hb hc hcomma index ts
  simp [added, hb, hc, hreleased, shown_eq_written hc]

lemma fits_iff_of_spells {limit : Int} {ctx : Context} {m : Nat} {t v : Token} {ts us : List Token}
    {ps : List Piece} (h : Typeset ctx 0 ts ps m) (hus : Spells ps (ps.map Piece.kind) us)
    (hcopy : v.Copies t) (hb : t.kind ≠ .blank) :
    InlineBlock.judge limit (t :: ts) = .fits ↔ InlineBlock.judge limit (v :: us) = .fits := by
  apply InlineBlock.fits_iff_of_copies hcopy hb rfl
  intro length depth
  have hrest : ((0 ≠ 0 → ((length + 0 : Nat) : Int) ≤ limit) ∧
      InlineBlock.judgeFrom limit (some t) (length + 0) depth ts = .fits) ↔
      InlineBlock.judgeFrom limit (some v) length depth us = .fits :=
    h.fits_iff hus (by simp [InlineBlock.leavesSpace_of_copies hcopy]) (by simp)
  simpa using hrest

/-- The pieces to come as the formatted text has them: the first piece of a page has no gap. -/
def Shows (s : Draft) (qs ps : List Piece) : Prop :=
  ps = qs ∨ s.text = [] ∧ ps = flush qs

/-- From a draft on, the formatted text goes on to one that is in step with the given draft, and to the
tokens that the pieces to come are spelled with. -/
def KeepsUp (o : Options) (s : Draft) (ps : List Piece) (u : Draft) (j : Nat) (us : List Token) : Prop :=
  ∃ n u' j' us', InLockstep o n s u' ∧ Spells ps (ps.map Piece.kind) us' ∧ (∀ w ∈ us', w.Proper) ∧
    u.run o j us = u'.run o j' us'

lemma prefix_run_comment {o : Options} (hunit : o.unit.isAllBlank = true) {t : Token} (ht : t.Proper)
    (hk : t.kind = .blockComment) (s : Draft) (index : Nat) (ts : List Token) :
    (s.newLine o.unit).page.text.trimStart ++ s.shown o t <+:
      ((s.after o index t ts).run o (index + 1) ts).1.text := by
  have hcomment := isBlockComment_shown (s := s) hunit ht (by simp [hk, Kind.isComment])
  refine prefix_text_of_run hcomment.solid ?_
  have hwrite : Grows ((s.newLine o.unit).write (s.shown o t)) (s.after o index t ts) := by
    have hafter : (s.after o index t ts).page =
        (((s.newLine o.unit).write (s.shown o t)).newLine o.unit).page := by
      simp only [after, placed, hk, shown]
      rfl
    exact ((Grows.refl _).newLine _).of_page hafter
  refine hwrite _ (Text.trimEnd_append_solid hcomment.solid) ⟨[], ?_⟩
  rw [List.append_nil, write, Page.text_append]

lemma prefix_run_opening {o : Options} {s : Draft} {t : Token} {ts : List Token} (hk : t.kind = .opening)
    (hheld : s.held.head? = some ',') (hfits : InlineBlock.judge o.inlineLimit (t :: ts) = .fits) (index : Nat) :
    s.beforeBracket.page.text.trimStart ++ [','] <+: ((s.after o index t ts).run o (index + 1) ts).1.text := by
  have hcomma : Text.Solid [','] := ⟨by simp, by decide, by decide⟩
  refine prefix_text_of_run hcomma ?_
  obtain ⟨held, hheld⟩ := List.head?_eq_some_iff.mp hheld
  rw [page_after_opening hk (.inr hfits), Page.text_append, hheld]
  exact ⟨held ++ t.text, by simp⟩

section

variable {o : Options} (ho : o.IsPlain) {s u : Draft} {t : Token} {n j : Nat} {gap : Text}
  {ps : List Piece} {us : List Token} (hlock : InLockstep o n s u) (ht : t.Proper)
  (hproper : ∀ v ∈ us, v.Proper) (index : Nat)
include ho hlock ht hproper

lemma keepsUp_comment (hk : t.kind = .blockComment) (hsteady : Comment.isSteady t.text = true)
    (hus : Spells (⟨gap, .blockComment, s.shown o t⟩ :: ps)
      ((⟨gap, .blockComment, s.shown o t⟩ :: ps).map Piece.kind) us) (ts : List Token) :
    KeepsUp o (s.after o index t ts) ps u j us := by
  obtain ⟨v, us', j', htext, hkind, hproper', hus', hrun⟩ := exists_run_spelled ho u hproper hus j
  have hblock : IsBlockComment t.text := by simpa [Token.Proper, hk] using ht
  have hmoved : Comment.reindent (s.levels.indentation o.unit) v.text = v.text := by
    rw [htext, shown, hk]
    exact (Comment.reindent_reindent_iff (ho.indentation s.levels) hblock).mpr
      (by simpa [Comment.isSteady] using hsteady)
  rw [run_cons ho.bindings (hproper' v (by simp))] at hrun
  exact ⟨n, _, _, us', hlock.comment ho hk hkind htext hmoved gap index j' ts us', hus',
    fun w hw => hproper' w (List.mem_cons_of_mem _ hw), hrun⟩

lemma isSteady_of_run (hk : t.kind = .blockComment)
    (hus : Spells (⟨gap, .blockComment, s.shown o t⟩ :: ps)
      ((⟨gap, .blockComment, s.shown o t⟩ :: ps).map Piece.kind) us) (ts : List Token)
    (hsame : (u.run o j us).1.text = ((s.after o index t ts).run o (index + 1) ts).1.text) :
    Comment.isSteady t.text = true := by
  obtain ⟨v, us', j', htext, hkind, hproper', -, hrun⟩ := exists_run_spelled ho u hproper hus j
  have hv := hproper' v (by simp)
  have hblock : IsBlockComment t.text := by simpa [Token.Proper, hk] using ht
  have hpast := alike_pastGap u gap
  have hpage := prefix_run_comment ho.unit_blank ht hk s index ts
  have hpage' := prefix_run_comment ho.unit_blank hv hkind (u.pastGap gap) j' us'
  rw [run_cons ho.bindings hv] at hrun
  rw [← hrun, hsame, ← ((hlock.newLine ho).trans (hpast.newLine o.unit).symm).text] at hpage'
  obtain ⟨r, hr⟩ := hpage
  obtain ⟨r', hr'⟩ := hpage'
  rw [← hr', List.append_assoc, List.append_assoc, List.append_right_inj] at hr
  have hsteady : s.shown o t = (u.pastGap gap).shown o v :=
    (isBlockComment_shown ho.unit_blank ht (by simp [hk, Kind.isComment])).eq_of_append
      (isBlockComment_shown ho.unit_blank hv (by simp [hkind, Kind.isComment])) hr
  have hmoved : s.shown o t = Comment.reindent (s.levels.indentation o.unit) t.text := by rw [shown, hk]
  rw [shown.eq_def o _ v, hkind, htext, hpast.levels, ← hlock.levels, hmoved] at hsteady
  simpa [Comment.isSteady] using
    (Comment.reindent_reindent_iff (ho.indentation s.levels) hblock).mp hsteady.symm

omit ht in
lemma exists_alike_behindCommas
    (hus : Spells (behindCommas gap t.kind t.written n ++ ps)
      ((behindCommas gap t.kind t.written n ++ ps).map Piece.kind) us) :
    ∃ v us' u' j', v.Copies t ∧ v.Proper ∧ (∀ w ∈ us', w.Proper) ∧ Spells ps (ps.map Piece.kind) us' ∧
      u.run o j us = (u'.after o j' v us').run o (j' + 1) us' ∧ u'.held = s.held ∧ Alike s u' ∧
      (n = 0 → u' = u.pastGap gap) ∧ (n ≠ 0 → u'.previous = some .operator) := by
  have hfree : n ≠ 0 → u.inlineDepth = 0 ∧ u.inLimit = false := fun hn =>
    ⟨(hlock.alike' hn).inlineDepth.symm.trans (hlock.outside hn).1,
      (hlock.alike' hn).inLimit.symm.trans (hlock.outside hn).2.1⟩
  obtain ⟨v, us', u', j', hcopy, hproper', hus', hrun, hheld', hzero, hpos⟩ :=
    exists_run_behindCommas ho hproper hus hfree (hlock.levels ▸ hlock.overflow) j
  obtain ⟨hv, hproper'⟩ := List.forall_mem_cons.mp hproper'
  rw [run_cons ho.bindings hv] at hrun
  refine ⟨v, us', u', j', hcopy, hv, hproper', hus', hrun, ?_, ?_, hzero, fun hn => (hpos hn).2⟩
  · rw [hheld', hlock.held', hlock.held, List.nil_append]
  · by_cases hn : n = 0
    · rw [hzero hn]
      exact (hlock.alike hn).trans (alike_pastGap u gap).symm
    · exact (hlock.alike' hn).trans (hpos hn).1.symm

lemma keepsUp_set (hb : t.kind ≠ .blank) (hc : t.kind.isComment = false)
    (hcomma : t.kind = .operator → t.text = [','] → 0 < s.inlineDepth ∨ s.inLimit = true)
    {ctx : Context} {m : Nat} {ts : List Token} (hts : Typeset ctx 0 ts ps m)
    (hgap : s.text = [] ∨ gap = s.gapTo (s.after o index t ts)) (hstays : s.Stays o t ts)
    (hus : Spells (behindCommas gap t.kind t.written n ++ ps)
      ((behindCommas gap t.kind t.written n ++ ps).map Piece.kind) us) :
    KeepsUp o (s.after o index t ts) ps u j us := by
  obtain ⟨v, us', u', j', hcopy, hv, hproper', hus', hrun, hheld, halike, hzero, hpos⟩ :=
    exists_alike_behindCommas (j := j) ho hlock hproper hus
  refine ⟨0, _, _, us', ?_, hus', hproper', hrun⟩
  refine hlock.set ho halike hheld ht hv hcopy hb hc hcomma fun hk => ⟨?_, ?_⟩
  · exact fits_iff_of_spells hts hus' hcopy hb
  · intro hinline
    refine hlock.beforeBracket halike hzero hpos ?_ ?_
    · exact hgap.imp_right fun h => h.trans (gapTo_opening hk ht hlock.commas hinline)
    · intro hn hprevious
      by_contra htext
      have hheld : s.held ≠ [] := by simp [hlock.held, hn]
      have hdepth : ¬ 0 < s.inlineDepth := by simp [(hlock.outside hn).1]
      exact hstays.2 hk hheld hprevious htext (hinline.resolve_left hdepth)

omit ht in
lemma stays_of_run (hb : t.kind ≠ .blank) (hc : t.kind.isComment = false) {ctx : Context} {m : Nat}
    {ts : List Token} (hts : Typeset ctx 0 ts ps m)
    (hus : Spells (behindCommas gap t.kind t.written n ++ ps)
      ((behindCommas gap t.kind t.written n ++ ps).map Piece.kind) us)
    (hsame : (u.run o j us).1.text = ((s.after o index t ts).run o (index + 1) ts).1.text) :
    s.Stays o t ts := by
  refine ⟨fun hk => by simp [hk, Kind.isComment] at hc, fun hk hheld hprevious htext hfits => ?_⟩
  have hn : n ≠ 0 := by
    rintro rfl
    exact hheld hlock.held
  have hcomma : s.held.head? = some ',' := by rw [hlock.held, List.head?_replicate, if_neg hn]
  obtain ⟨v, us', u', j', hcopy, -, -, hus', hrun, hheld', halike, -, hpos⟩ :=
    exists_alike_behindCommas (j := j) ho hlock hproper hus
  have hpage := prefix_run_opening hk hcomma hfits index
  have hpage' := prefix_run_opening (s := u') (hcopy.1.trans hk) (hheld' ▸ hcomma)
    ((fits_iff_of_spells hts hus' hcopy hb).mp hfits) j'
  have hkept : s.beforeBracket = s := if_pos (.inl hprevious)
  have hcut : u'.beforeBracket = u'.trimEnd := if_neg (by simp [hpos hn])
  have hnewLine := (hlock.alike' hn).finished
  have htail := (body_tail_newLine ho.unit_blank u).2
  rw [hkept, (hlock.alike' hn).text, text_append_tail (hnewLine ▸ htext), ← hnewLine, List.append_assoc] at hpage
  rw [hcut, trimEnd, Page.text_trimEnd, ← body, ← text_eq, ← halike.finished, ← hrun, hsame] at hpage'
  obtain ⟨c, r, hr⟩ := List.exists_cons_of_ne_nil htail
  have hblank := isAllBlank_tail (u.newLine o.unit)
  rw [hr] at hpage hblank
  have hhead := (List.prefix_append_right_inj _).mp
    (List.prefix_of_prefix_length_le hpage' hpage (by simp))
  obtain rfl : ',' = c := (List.cons_prefix_cons.mp hhead).1
  simp [Text.isAllBlank, Text.isBlank] at hblank

/-- Over one token of the query, the formatted text keeps up exactly if the token stays. Blanks and commas
that are held back set no piece, so that it stays where it is, and it catches up with the token behind
them. -/
lemma keepsUp_after {ctx : Context} {p : Position} {x : Text} {ts : List Token}
    (hr : Reads Dialect.standard.lexicon ctx p x ts) (hline : t.kind ≠ .lineComment)
    (hps : s.Shows (s.pieces o index (t :: ts)) ps) (hus : Spells ps (ps.map Piece.kind) us) :
    (s.Stays o t ts → ∃ ps', (s.after o index t ts).Shows ((s.after o index t ts).pieces o (index + 1) ts) ps' ∧
      KeepsUp o (s.after o index t ts) ps' u j us) ∧
    ((u.run o j us).1.text = ((s.after o index t ts).run o (index + 1) ts).1.text → s.Stays o t ts) := by
  have hpieces : s.pieces o index (t :: ts) =
      s.added o t (s.after o index t ts) ++ (s.after o index t ts).pieces o (index + 1) ts := by
    rw [pieces, step_eq_after ho.bindings ht]
  rw [hpieces] at hps
  by_cases hb : t.kind = .blank
  · have hadded : s.added o t (s.after o index t ts) = [] := by simp [added, hb]
    rw [hadded, List.nil_append] at hps
    rw [after_blank hb] at hps ⊢
    exact ⟨fun _ => ⟨ps, hps, n, u, j, us, hlock.blank, hus, hproper, rfl⟩, fun _ => by simp [Stays, hb]⟩
  by_cases hhold : t.kind = .operator ∧ t.text = [','] ∧ s.inlineDepth = 0 ∧ s.inLimit = false
  · obtain ⟨hk, htext, hdepth, hlimit⟩ := hhold
    have hcomma := after_comma ho hk htext hdepth hlimit hlock.overflow index ts
    have hadded : s.added o t (s.after o index t ts) = [] := by simp [added, hk, hcomma.2.1]
    have hsame : (s.after o index t ts).text = s.text :=
      hcomma.1.finished.trans (text_of_newLine ho s)
    rw [hadded, List.nil_append, Shows, ← hsame] at hps
    exact ⟨fun _ => ⟨ps, hps, n + 1, u, j, us, hlock.hold ho hk htext hdepth hlimit index ts, hus, hproper, rfl⟩,
      fun _ => by simp [Stays, hk]⟩
  have hcomma : t.kind = .operator → t.text = [','] → 0 < s.inlineDepth ∨ s.inLimit = true := by
    intro hk htext
    by_contra hfree
    rw [not_or, Nat.not_lt, Nat.le_zero, Bool.not_eq_true] at hfree
    exact hhold ⟨hk, htext, hfree⟩
  by_cases hc : t.kind.isComment = true
  · have hk : t.kind = .blockComment := by
      revert hc hline
      cases t.kind <;> simp [Kind.isComment]
    have hadded : s.added o t (s.after o index t ts) =
        [⟨s.gapTo (s.after o index t ts), .blockComment, s.shown o t⟩] := by
      simp [added, hk, Kind.isComment]
    rw [hadded] at hps
    obtain ⟨gap, rfl⟩ : ∃ gap, ps = ⟨gap, .blockComment, s.shown o t⟩ ::
        (s.after o index t ts).pieces o (index + 1) ts := by
      rcases hps with rfl | ⟨-, rfl⟩ <;> exact ⟨_, rfl⟩
    exact ⟨fun hstays => ⟨_, .inl rfl, keepsUp_comment ho hlock ht hproper index hk (hstays.1 hk) hus ts⟩,
      fun hsame => ⟨fun _ => isSteady_of_run ho hlock ht hproper index hk hus ts hsame, by simp [hk]⟩⟩
  · rw [Bool.not_eq_true] at hc
    have hlength : s.held.length = n := by rw [hlock.held, List.length_replicate]
    rw [added_of_set ht hb hc hcomma, hlength] at hps
    obtain ⟨gap, rfl, hgap⟩ : ∃ gap, ps = behindCommas gap t.kind t.written n ++
        (s.after o index t ts).pieces o (index + 1) ts ∧
        (s.text = [] ∨ gap = s.gapTo (s.after o index t ts)) := by
      rcases hps with rfl | ⟨hnil, rfl⟩
      · exact ⟨_, rfl, .inr rfl⟩
      · exact ⟨[], flush_behindCommas _ _ _ _ _, .inl hnil⟩
    have hreleased := held_after_eq_nil (o := o) ht hb hc hcomma index ts
    obtain ⟨s', -, hcomposes⟩ := run_composes ho.unit_blank ho.bindings hr (s.after o index t ts)
      (index + 1) (by simp [hreleased])
    have htypeset := hcomposes.typeset
    rw [hreleased, List.length_nil] at htypeset
    exact ⟨fun hstays => ⟨_, .inl rfl, keepsUp_set ho hlock ht hproper index hb hc hcomma htypeset hgap hstays hus⟩,
      fun hsame => stays_of_run ho hlock hproper index hb hc htypeset hus hsame⟩

end

/-- A query and its formatted text are laid out in step to their ends, unless a token does not stay. -/
lemma run_lockstep {o : Options} (ho : o.IsPlain) {ctx : Context} {p : Position} {x : Text}
    {ts : List Token} (h : Reads Dialect.standard.lexicon ctx p x ts)
    (hline : ∀ t ∈ ts, t.kind ≠ .lineComment) {s u : Draft} {index j n : Nat} (hlock : InLockstep o n s u)
    {ps : List Piece} (hps : s.Shows (s.pieces o index ts) ps) {us : List Token}
    (hus : Spells ps (ps.map Piece.kind) us) (hproper : ∀ v ∈ us, v.Proper) :
    (u.run o j us).1.text = (s.run o index ts).1.text ↔
      (∀ t ∈ ts, t.kind = .blockComment → Comment.isSteady t.text = true) ∧ s.bracketsStay o index ts = true := by
  induction h generalizing s u index j n ps us with
  | nil ctx p =>
    obtain rfl : ps = [] := by rcases hps with rfl | ⟨-, rfl⟩ <;> rfl
    cases hus
    exact iff_of_true (hlock.finished ho).symm ⟨by simp, rfl⟩
  | @cons ctx p text rest l ts hl hs hne hr ih =>
    have hlexed : Lexed ctx text rest l := ⟨hl, hs, hne⟩
    have ht := hlexed.proper (t := l.token p text) rfl rfl
    obtain ⟨hline', hlines⟩ := List.forall_mem_cons.mp hline
    obtain ⟨hkeeps, hstays⟩ := keepsUp_after (j := j) ho hlock ht hproper index hr hline' hps hus
    rw [run_cons ho.bindings ht, steady_bracketsStay_cons ho.bindings ht]
    by_cases hstay : s.Stays o (l.token p text) ts
    · obtain ⟨ps', hps', n', u', j', us', hlock', hus', hproper', hrun⟩ := hkeeps hstay
      rw [hrun, and_iff_right hstay]
      exact ih hlines hlock' hps' hus' hproper'
    · exact iff_of_false (mt hstays hstay) fun hall => hstay hall.1

end Draft

instance : DecidableRel Keeps := fun p q =>
  inferInstanceAs (Decidable (p.text = ['.'] →
    if q.gap = [] then q.text.startsWord = true → q.kind = .word ∨ q.kind = .number
    else q.kind ≠ .word))

/-- A query without line comments, of which the pieces of its page are legible and keep their kinds, can be
formatted and formatted again. The formatted query stays as it is the second time exactly if its comments are
steady and its brackets stay where they are. -/
theorem formatWith_formatWith (o : Options) (ho : o.IsPlain) (hdialect : o.dialect = .standard)
    (query : Text) (ts : List Token) (hts : tokenize .standard query = .ok ts)
    (hline : ∀ t ∈ ts, t.kind ≠ .lineComment) (hlegible : Legible (Draft.pieces o {} 0 ts))
    (hkeeps : (Draft.pieces o {} 0 ts).IsChain Keeps) :
    ∃ page again, formatWith o query = .ok page ∧ formatWith o page = .ok again ∧
      (again = page ↔ (∀ t ∈ ts, t.kind = .blockComment → Comment.isSteady t.text = true) ∧
        Draft.bracketsStay o {} 0 ts = true) := by
  have hreads := (tokensFrom_eq_ok_iff Dialect.standard_substantial).mp hts
  obtain ⟨s, hrun, hset⟩ := Draft.run_composes ho.unit_blank ho.bindings hreads {} 0 (by simp)
  have hsound := hset.typeset.sound
  have hpage := Draft.text_of_body hsound hset.body
  have hstart : InStep .start .start 0 none (Draft.pieces o {} 0 ts) :=
    ⟨by simp [Context.start], by simp [Context.start], by simp [Context.start]⟩
  obtain ⟨ks, hks, hkinds⟩ := hset.typeset.readsBack none (by simp) hset.chain hlegible hstart
  obtain rfl := hkinds hkeeps
  obtain ⟨us, hus, hspells⟩ := ((readsBack_flush hsound).mpr hks).reads (sound_flush hsound) .start
  rw [← kind_flush] at hspells
  have hlock : Draft.InLockstep o 0 {} {} :=
    ⟨fun _ => .refl _, by simp, rfl, rfl, rfl, by simp, by simp, by simp⟩
  have hsame := Draft.run_lockstep ho hreads hline (j := 0) hlock (.inr ⟨rfl, rfl⟩) hspells hus.proper
  have hnone := Draft.run_succeeds (s := {}) ho.bindings hus.proper 0
  rw [hrun] at hsame
  refine ⟨s.text, _, formatWith_eq_ok (hdialect ▸ hts) (by rw [layout, hrun]), ?_, hsame⟩
  have hagain : tokenize o.dialect s.text = .ok us := by
    rw [hdialect, hpage]
    exact tokensFrom_of_reads hus
  refine formatWith_eq_ok hagain ?_
  rw [layout]
  generalize Draft.run o {} 0 us = r at hnone
  obtain ⟨u, fault⟩ := r
  obtain rfl : fault = none := hnone
  rfl

theorem formatWith_formatWith_of_list :
    ∃ page, formatWith {} "?,(1) /*a\n b*/".toList = .ok page ∧ formatWith {} page = .ok page := by
  have hreads : ∃ ts, Reads Dialect.standard.lexicon .start .start
      (['?'] ++ ([','] ++ (['('] ++ (['1'] ++ ([')'] ++ ([' '] ++ ("/*a\n b*/".toList ++ []))))))) ts ∧
      (∀ t ∈ ts, t.kind ≠ .lineComment) ∧ Legible (Draft.pieces {} {} 0 ts) ∧
      (Draft.pieces {} {} 0 ts).IsChain Keeps ∧
      (∀ t ∈ ts, t.kind = .blockComment → Comment.isSteady t.text = true) ∧
      Draft.bracketsStay {} {} 0 ts = true := by
    refine ⟨_, .cons rfl rfl (by simp) (.cons (lexeme_comma _ _) rfl (by simp) (.cons rfl rfl (by simp)
      (.cons rfl rfl (by simp) (.cons rfl rfl (by simp) (.cons rfl rfl (by simp)
        (.cons rfl rfl (by simp) (.nil _ _))))))), ?_⟩
    decide
  obtain ⟨ts, hreads, hline, hlegible, hkeeps, hsteady, hstay⟩ := hreads
  obtain ⟨page, again, hpage, hagain, hiff⟩ := formatWith_formatWith {} ⟨by decide, rfl, rfl, rfl⟩ rfl _ ts
    (tokensFrom_of_reads hreads) hline hlegible hkeeps
  obtain rfl := hiff.mpr ⟨hsteady, hstay⟩
  exact ⟨again, hpage, hagain⟩

/-- A bracket behind a comma and a blank is set at the start of a line, with the comma in front of it;
in the formatted text no blank stands between them, and the bracket goes up to the line before. -/
theorem formatWith_moves_bracket : ¬∀ (query : Text) (ts : List Token),
    tokenize .standard query = .ok ts → (∀ t ∈ ts, t.kind ≠ .lineComment) →
    ∃ page, formatWith {} query = .ok page ∧ formatWith {} page = .ok page := by
  intro h
  have hquery : ∃ ts, Reads Dialect.standard.lexicon .start .start
      (['?'] ++ ([','] ++ ([' '] ++ (['('] ++ (['1'] ++ ([')'] ++ [])))))) ts ∧
      layout {} ts = .ok "?\n,(1)".toList ∧ ∀ t ∈ ts, t.kind ≠ .lineComment := by
    refine ⟨_, .cons rfl rfl (by simp) (.cons (lexeme_comma _ _) rfl (by simp) (.cons rfl rfl (by simp)
      (.cons rfl rfl (by simp) (.cons rfl rfl (by simp) (.cons rfl rfl (by simp) (.nil _ _)))))), rfl, ?_⟩
    decide
  have hagain : ∃ us, Reads Dialect.standard.lexicon .start .start
      (['?'] ++ (['\n'] ++ ([','] ++ (['('] ++ (['1'] ++ ([')'] ++ [])))))) us ∧
      layout {} us = .ok "?,(1)".toList :=
    ⟨_, .cons rfl rfl (by simp) (.cons rfl rfl (by simp) (.cons (lexeme_comma _ _) rfl (by simp)
      (.cons rfl rfl (by simp) (.cons rfl rfl (by simp) (.cons rfl rfl (by simp) (.nil _ _)))))), rfl⟩
  obtain ⟨ts, hts, hlayout, hline⟩ := hquery
  obtain ⟨us, hus, hlayout'⟩ := hagain
  obtain ⟨page, hpage, hpage'⟩ := h _ ts (tokensFrom_of_reads hts) hline
  obtain rfl := Except.ok.inj ((formatWith_eq_ok (tokensFrom_of_reads hts) hlayout).symm.trans hpage)
  have hmoved := Except.ok.inj ((formatWith_eq_ok (o := {}) (tokensFrom_of_reads hus) hlayout').symm.trans
    hpage')
  simp at hmoved

end SqlLayout
