import SqlLayout.Proofs.Lookahead
import SqlLayout.Proofs.Margins

/-!
# Formatting twice in step

A query and its formatted text are laid out in step: behind each token of the query stands a draft
that the formatted text reaches too. Only a comma that is held back comes later in the formatted
text, since it stands in front of the next token there.
-/

namespace SqlLayout

/-- Options under which lines are indented with spaces and tabs and never wrapped, commas lead, and no
values are bound. -/
structure Options.IsPlain (o : Options) : Prop where
  unit : o.unit.all Comment.isMargin = true
  wrap : o.maxLineLength = 0
  bindings : o.bindings = .none
  commas : o.commaStyle = .leading

lemma Options.IsPlain.unit_blank {o : Options} (h : o.IsPlain) : o.unit.isAllBlank = true :=
  Comment.isAllBlank_of_isMargin h.unit

lemma Options.IsPlain.indentation {o : Options} (h : o.IsPlain) (ls : Levels) :
    (ls.indentation o.unit).all Comment.isMargin = true := by
  have hunit := h.unit
  simp only [Levels.indentation, List.all_flatten, List.all_replicate] at hunit ⊢
  simp [hunit]

namespace Draft

lemma text_eq (s : Draft) : s.text = s.body.trimStart := by
  rw [text, Text.trim, body, Text.trimStart_trimEnd]

lemma beforeBracket_of_text {s : Draft} (h : s.text = []) : Alike s.beforeBracket s := by
  have hstart : s.page.text.trimStart = [] :=
    Decidable.byContradiction fun hne => Text.trimEnd_ne_nil (Text.startsBlank_trimStart _) hne h
  rw [beforeBracket]
  split
  · exact .refl s
  · refine ⟨?_, rfl, rfl, rfl, rfl⟩
    rw [trimEnd, Page.text_trimEnd, Text.trimStart_trimEnd, hstart]
    rfl

lemma trimEnd_of_tail {s : Draft} (h : s.tail = []) : Alike s s.trimEnd := by
  have htext := body_append_tail s
  rw [h, List.append_nil] at htext
  refine ⟨?_, rfl, rfl, rfl, rfl⟩
  rw [trimEnd, Page.text_trimEnd, ← body, htext]

section

variable {o : Options} (ho : o.IsPlain) {s u : Draft}
include ho

lemma newLine_newLine (s : Draft) : Alike ((s.newLine o.unit).newLine o.unit) (s.newLine o.unit) where
  text := by
    have hbody := (body_tail_newLine ho.unit_blank s).1
    rw [text_newLine, text_newLine, hbody]
    rfl
  levels := rfl
  inlineDepth := rfl
  inLimit := rfl
  separated := rfl

lemma text_of_newLine (s : Draft) : (s.newLine o.unit).text = s.text := by
  rw [text_eq, text_eq, (body_tail_newLine ho.unit_blank s).1]

lemma overflow_writeWrapped (h : s.levels.overflow = 0) (t : Text) :
    (s.writeWrapped o t).levels.overflow = 0 := by
  simpa [writeWrapped, wrapBefore, ho.wrap, writeSpaced, write] using h

lemma overflow_keyword (h : s.levels.overflow = 0) (role : Role) (own t : Text) :
    (s.keyword o role own t).levels.overflow = 0 := by
  cases role with
  | clause | indented => rfl
  | breaking =>
    change (if isJoin o.dialect own then s.dropOverflow.outdent .continuation
      else s.dropOverflow).levels.overflow = 0
    split <;> rfl
  | plain => exact overflow_writeWrapped ho h _

omit ho in
lemma overflow_opening (o : Options) (s : Draft) (index : Nat) (ts : List Token) (t : Text) :
    (s.opening o index ts t).levels.overflow = 0 := by
  rw [opening_eq]
  split
  · rfl
  · split <;> rfl

lemma overflow_operator (h : s.levels.overflow = 0) (own t : Text) :
    (s.operator o own t).levels.overflow = 0 := by
  rw [operator]
  split
  · rw [comma]
    split
    · rfl
    · split <;> rfl
  · split
    · exact h
    · split
      · exact h
      · split
        · exact h
        · exact overflow_writeWrapped ho h t

lemma overflow_after {t : Token} (h : s.levels.overflow = 0) (index : Nat) (rest : List Token) :
    (s.after o index t rest).levels.overflow = 0 := by
  change (s.placed o index t rest t.text s.used).levels.overflow = 0
  have hfree : { s with held := [] }.levels.overflow = 0 := h
  rw [placed]
  cases t.kind with
  | blank | unclassified | blockComment | placeholder => exact h
  | lineComment => rfl
  | keyword role => exact overflow_keyword ho hfree role _ _
  | opening => exact overflow_opening o _ _ _ _
  | closing =>
    change (closing o { s with held := [] } (s.held ++ t.text)).levels.overflow = 0
    rw [closing]
    split <;> exact h
  | operator => exact overflow_operator ho hfree _ _
  | word | quoted | number => exact overflow_writeWrapped ho hfree _

end

section

variable {o : Options} {s : Draft} {t : Token}

lemma run_cons (hbind : o.bindings = .none) (ht : t.Proper) (index : Nat) (ts : List Token) :
    s.run o index (t :: ts) = (s.after o index t ts).run o (index + 1) ts := by
  rw [run, step_eq_after hbind ht]

lemma run_succeeds (hbind : o.bindings = .none) {ts : List Token} (hts : ∀ t ∈ ts, t.Proper) (index : Nat) :
    (s.run o index ts).2 = none := by
  induction ts generalizing s index with
  | nil => rfl
  | cons t ts ih =>
    obtain ⟨ht, hts⟩ := List.forall_mem_cons.mp hts
    rw [run_cons hbind ht]
    exact ih hts (index + 1)

lemma after_blank (hk : t.kind = .blank) (index : Nat) (ts : List Token) :
    s.after o index t ts = { s with previous := some .blank } := by
  simp [after, placed, hk]

lemma dropOverflow_of_overflow (h : s.levels.overflow = 0) : s.dropOverflow = s := by
  obtain ⟨page, ⟨clause, block, continuation, overflow⟩, inlineDepth, held, inLimit, previous, separated,
    used, notes⟩ := s
  obtain rfl : overflow = 0 := h
  rfl

lemma after_comma (ho : o.IsPlain) (hk : t.kind = .operator) (ht : t.text = [','])
    (hdepth : s.inlineDepth = 0) (hlimit : s.inLimit = false) (hover : s.levels.overflow = 0)
    (index : Nat) (ts : List Token) :
    Alike (s.after o index t ts) (s.newLine o.unit) ∧ (s.after o index t ts).held = s.held ++ [','] ∧
      (s.after o index t ts).previous = some .operator := by
  have hafter : s.after o index t ts =
      { (newLine { s.dropOverflow.trimEnd with held := s.held ++ [','] } o.unit) with
        previous := some .operator } := by
    simp only [after, placed, hk, ht, operator, if_true]
    rw [comma_of_holdsCommas o { s with held := [] } _ ⟨ho.commas, hdepth, hlimit⟩]
    rfl
  rw [hafter, dropOverflow_of_overflow hover]
  have hline := Alike.newLine_trimEnd s o.unit
  exact ⟨⟨hline.text, hline.levels, hline.inlineDepth, hline.inLimit, hline.separated⟩, rfl, rfl⟩

end

lemma held_after_eq_nil {o : Options} {s : Draft} {t : Token} (ht : t.Proper) (hb : t.kind ≠ .blank)
    (hc : t.kind.isComment = false)
    (hcomma : t.kind = .operator → t.text = [','] → 0 < s.inlineDepth ∨ s.inLimit = true)
    (index : Nat) (ts : List Token) : (s.after o index t ts).held = [] := by
  rw [held_after, heldAfter]
  cases hk : t.kind with
  | blank => exact absurd hk hb
  | lineComment | blockComment => simp [hk, Kind.isComment] at hc
  | unclassified name => simp [Token.Proper, hk] at ht
  | operator =>
    apply if_neg
    rintro ⟨htext, -, hdepth, hlimit⟩
    have hset := hcomma hk htext
    simp [hdepth, hlimit] at hset
  | _ => rfl

/-- A draft behind the blanks in front of a piece. -/
def pastGap (u : Draft) (gap : Text) : Draft :=
  if gap = [] then u else { u with previous := some .blank }

lemma alike_pastGap (u : Draft) (gap : Text) : Alike (u.pastGap gap) u := by
  rw [pastGap]
  split <;> exact ⟨rfl, rfl, rfl, rfl, rfl⟩

lemma held_pastGap (u : Draft) (gap : Text) : (u.pastGap gap).held = u.held := by
  rw [pastGap]
  split <;> rfl

lemma exists_run_spelled {o : Options} (ho : o.IsPlain) (u : Draft) {q : Piece} {ps : List Piece}
    {us : List Token} (hproper : ∀ v ∈ us, v.Proper)
    (hus : Spells (q :: ps) ((q :: ps).map Piece.kind) us) (j : Nat) :
    ∃ v us' j', v.text = q.text ∧ v.kind = q.kind ∧ (∀ w ∈ v :: us', w.Proper) ∧
      Spells ps (ps.map Piece.kind) us' ∧ u.run o j us = (u.pastGap q.gap).run o j' (v :: us') := by
  obtain ⟨v, us', htext, hkind, hus', ⟨hgap, rfl⟩ | ⟨hgap, b, hb, rfl⟩⟩ := hus.cons_inv
  · exact ⟨v, us', j, htext, hkind, hproper, hus', by rw [pastGap, if_pos hgap]⟩
  · refine ⟨v, us', j + 1, htext, hkind, fun w hw => hproper w (List.mem_cons_of_mem _ hw), hus', ?_⟩
    rw [run_cons ho.bindings (hproper b (by simp)), after_blank hb, pastGap, if_neg hgap]

/-- The formatted text goes on through the commas in front of a token, up to the token itself. -/
lemma exists_run_behindCommas {o : Options} (ho : o.IsPlain) {u : Draft} {t : Token} {gap : Text} {n : Nat}
    {ps : List Piece} {us : List Token} (hproper : ∀ v ∈ us, v.Proper)
    (hus : Spells (behindCommas gap t.kind t.written n ++ ps)
      ((behindCommas gap t.kind t.written n ++ ps).map Piece.kind) us)
    (hfree : n ≠ 0 → u.inlineDepth = 0 ∧ u.inLimit = false) (hover : u.levels.overflow = 0) (j : Nat) :
    ∃ v us' u' j', v.Copies t ∧ (∀ w ∈ v :: us', w.Proper) ∧ Spells ps (ps.map Piece.kind) us' ∧
      u.run o j us = u'.run o j' (v :: us') ∧ u'.held = u.held ++ List.replicate n ',' ∧
      (n = 0 → u' = u.pastGap gap) ∧
      (n ≠ 0 → Alike u' (u.newLine o.unit) ∧ u'.previous = some .operator) := by
  induction n generalizing u gap us j with
  | zero =>
    obtain ⟨v, us', j', htext, hkind, hproper', hus', hrun⟩ := exists_run_spelled ho u hproper hus j
    exact ⟨v, us', _, j', ⟨hkind, htext⟩, hproper', hus', hrun, by simp [held_pastGap], fun _ => rfl,
      by simp⟩
  | succ n ih =>
    obtain ⟨hdepth, hlimit⟩ := hfree (by omega)
    obtain ⟨c, us₁, j₁, htext, hkind, hproper₁, hus₁, hrun₁⟩ := exists_run_spelled ho u hproper hus j
    have hpast := alike_pastGap u gap
    have hover' : (u.pastGap gap).levels.overflow = 0 := hpast.levels ▸ hover
    obtain ⟨halike, hheld, hprevious⟩ := after_comma ho hkind htext (hpast.inlineDepth.trans hdepth)
      (hpast.inLimit.trans hlimit) hover' j₁ us₁
    have hline := halike.trans (hpast.newLine o.unit)
    rw [run_cons ho.bindings (hproper₁ c (by simp))] at hrun₁
    have hover₁ := overflow_after ho (t := c) hover' j₁ us₁
    generalize (u.pastGap gap).after o j₁ c us₁ = u₁ at *
    obtain ⟨v, us', u', j', hcopy, hproper', hus', hrun', hheld', hzero, hpos⟩ :=
      ih (u := u₁) (fun w hw => hproper₁ w (List.mem_cons_of_mem _ hw)) hus₁
        (fun _ => ⟨hline.inlineDepth.trans hdepth, hline.inLimit.trans hlimit⟩) hover₁ (j₁ + 1)
    refine ⟨v, us', u', j', hcopy, hproper', hus', hrun₁.trans hrun', ?_, by simp, fun _ => ?_⟩
    · rw [hheld', hheld, held_pastGap, List.replicate_succ, List.append_assoc, List.singleton_append]
    · by_cases hn : n = 0
      · obtain rfl := hzero hn
        exact ⟨hline, hprevious⟩
      · exact ⟨((hpos hn).1.trans (hline.newLine o.unit)).trans (newLine_newLine ho u), (hpos hn).2⟩

/-- Where the formatted text has come to when the query has come to a draft with some commas held
back: the commas and their new line are still to come. -/
structure InLockstep (o : Options) (n : Nat) (s u : Draft) : Prop where
  alike : n = 0 → Alike s u
  alike' : n ≠ 0 → Alike s (u.newLine o.unit)
  held : s.held = List.replicate n ','
  held' : u.held = []
  overflow : s.levels.overflow = 0
  outside : n ≠ 0 → s.inlineDepth = 0 ∧ s.inLimit = false ∧ s.previous ≠ some .opening
  bracket : n = 0 → u.previous = some .opening → s.previous = some .opening ∨ s.previous = some .blank
  solid : u.previous ≠ some .blank

namespace InLockstep

variable {o : Options} (ho : o.IsPlain) {n : Nat} {s u : Draft}

lemma levels (h : InLockstep o n s u) : s.levels = u.levels := by
  by_cases hn : n = 0
  · exact (h.alike hn).levels
  · exact (h.alike' hn).levels

include ho in
lemma newLine (h : InLockstep o n s u) : Alike (s.newLine o.unit) (u.newLine o.unit) := by
  by_cases hn : n = 0
  · exact (h.alike hn).newLine o.unit
  · exact ((h.alike' hn).newLine o.unit).trans (newLine_newLine ho u)

include ho in
lemma finished (h : InLockstep o n s u) : s.text = u.text := by
  by_cases hn : n = 0
  · exact (h.alike hn).finished
  · exact (h.alike' hn).finished.trans (text_of_newLine ho u)

lemma commas (h : InLockstep o n s u) : ∀ c ∈ s.held, c = ',' := by
  rw [h.held]
  simp

lemma blank (h : InLockstep o n s u) : InLockstep o n { s with previous := some .blank } u where
  alike := fun hn => ⟨(h.alike hn).text, (h.alike hn).levels, (h.alike hn).inlineDepth,
    (h.alike hn).inLimit, (h.alike hn).separated⟩
  alike' := fun hn => ⟨(h.alike' hn).text, (h.alike' hn).levels, (h.alike' hn).inlineDepth,
    (h.alike' hn).inLimit, (h.alike' hn).separated⟩
  held := h.held
  held' := h.held'
  overflow := h.overflow
  outside := fun hn => ⟨(h.outside hn).1, (h.outside hn).2.1, by simp⟩
  bracket := fun _ _ => .inr rfl
  solid := h.solid

include ho in
lemma hold (h : InLockstep o n s u) {t : Token} (hk : t.kind = .operator) (ht : t.text = [','])
    (hdepth : s.inlineDepth = 0) (hlimit : s.inLimit = false) (index : Nat) (ts : List Token) :
    InLockstep o (n + 1) (s.after o index t ts) u := by
  obtain ⟨halike, hheld, hprevious⟩ := after_comma ho hk ht hdepth hlimit h.overflow index ts
  have hline := halike.trans (h.newLine ho)
  exact {
    alike := by simp
    alike' := fun _ => hline
    held := by rw [hheld, h.held, List.replicate_succ']
    held' := h.held'
    overflow := overflow_after ho h.overflow index ts
    outside := fun _ => ⟨halike.inlineDepth.trans hdepth, halike.inLimit.trans hlimit, by simp [hprevious]⟩
    bracket := by simp
    solid := h.solid }

include ho in
lemma comment (h : InLockstep o n s u) {t v : Token} (hk : t.kind = .blockComment)
    (hkind : v.kind = .blockComment) (htext : v.text = s.shown o t)
    (hsteady : Comment.reindent (s.levels.indentation o.unit) v.text = v.text) (gap : Text)
    (index j : Nat) (ts us : List Token) :
    InLockstep o n (s.after o index t ts) ((u.pastGap gap).after o j v us) := by
  have hpast := alike_pastGap u gap
  have hs : s.after o index t ts = { s.blockComment o t.text with previous := some .blockComment } := by
    simp [after, placed, hk]
  have hu : (u.pastGap gap).after o j v us =
      { (u.pastGap gap).blockComment o v.text with previous := some .blockComment } := by
    simp [after, placed, hkind]
  have hshown : Comment.reindent (s.levels.indentation o.unit) t.text = v.text := by
    rw [htext, shown, hk]
  have halike : Alike (s.blockComment o t.text) ((u.pastGap gap).blockComment o v.text) := by
    refine Alike.blockComment ((h.newLine ho).trans (hpast.newLine o.unit).symm) ?_
    rw [hshown, hpast.levels, ← h.levels, hsteady]
  have hline : Alike (((u.pastGap gap).blockComment o v.text).newLine o.unit)
      ((u.pastGap gap).blockComment o v.text) := newLine_newLine ho _
  have halike' := halike.trans hline.symm
  rw [hs, hu]
  exact {
    alike := fun _ => ⟨halike.text, halike.levels, halike.inlineDepth, halike.inLimit, halike.separated⟩
    alike' := fun _ => ⟨halike'.text, halike'.levels, halike'.inlineDepth, halike'.inLimit,
      halike'.separated⟩
    held := h.held
    held' := (held_pastGap u gap).trans h.held'
    overflow := h.overflow
    outside := fun hn => ⟨(h.outside hn).1, (h.outside hn).2.1, by simp⟩
    bracket := by simp
    solid := by simp }

/-- An opening bracket finds the same page in the formatted text, unless blanks stand between it and
a comma in front of it. -/
lemma beforeBracket (h : InLockstep o n s u) {u' : Draft} {gap : Text} (halike : Alike s u')
    (hzero : n = 0 → u' = u.pastGap gap) (hpos : n ≠ 0 → u'.previous = some .operator)
    (hgap : s.text = [] ∨ gap = s.beforeBracket.tail)
    (hsteady : n ≠ 0 → s.previous = some .blank → s.text = []) :
    Alike s.beforeBracket u'.beforeBracket := by
  by_cases htext : s.text = []
  · have htext' : u'.text = [] := halike.finished ▸ htext
    exact ((beforeBracket_of_text htext).trans halike).trans (beforeBracket_of_text htext').symm
  have hgap := hgap.resolve_left htext
  by_cases hn : n = 0
  · obtain rfl := hzero hn
    by_cases hnil : gap = []
    · have hpast : u.pastGap gap = u := if_pos hnil
      have htail : s.beforeBracket.tail = [] := hgap.symm.trans hnil
      rw [hpast] at halike ⊢
      by_cases hopen : u.previous = some .opening
      · have hs : s.beforeBracket = s := if_pos (h.bracket hn hopen).symm
        have hu : u.beforeBracket = u := if_pos (.inr hopen)
        rwa [hs, hu]
      · have hu : u.beforeBracket = u.trimEnd := if_neg (by simp [hopen, h.solid])
        have hs : Alike s.beforeBracket s.trimEnd := by
          by_cases hkeep : s.previous = some .blank ∨ s.previous = some .opening
          · have hs : s.beforeBracket = s := if_pos hkeep
            rw [hs] at htail ⊢
            exact trimEnd_of_tail htail
          · have hs : s.beforeBracket = s.trimEnd := if_neg hkeep
            exact hs ▸ .refl _
        rw [hu]
        exact hs.trans halike.trimEnd
    · have hkeep : s.previous = some .blank ∨ s.previous = some .opening := by
        by_contra hkeep
        have hs : s.beforeBracket = s.trimEnd := if_neg hkeep
        rw [hs, tail_trimEnd] at hgap
        exact hnil hgap
      have hs : s.beforeBracket = s := if_pos hkeep
      have hu : (u.pastGap gap).beforeBracket = u.pastGap gap := by
        rw [Draft.beforeBracket, pastGap, if_neg hnil]
        exact if_pos (.inl rfl)
      rwa [hs, hu]
  · have hs : s.beforeBracket = s.trimEnd :=
      if_neg (not_or.mpr ⟨fun hp => htext (hsteady hn hp), (h.outside hn).2.2⟩)
    have hu : u'.beforeBracket = u'.trimEnd := if_neg (by simp [hpos hn])
    rw [hs, hu]
    exact halike.trimEnd

include ho in
lemma set (h : InLockstep o n s u) {u' : Draft} {t v : Token} (halike : Alike s u')
    (hheld : u'.held = s.held) (hproper : t.Proper) (hproper' : v.Proper) (hcopy : v.Copies t)
    (hb : t.kind ≠ .blank) (hc : t.kind.isComment = false) {index j : Nat} {ts us : List Token}
    (hcomma : t.kind = .operator → t.text = [','] → 0 < s.inlineDepth ∨ s.inLimit = true)
    (hopen : t.kind = .opening →
      (InlineBlock.judge o.inlineLimit (t :: ts) = .fits ↔
        InlineBlock.judge o.inlineLimit (v :: us) = .fits) ∧
      (0 < s.inlineDepth ∨ InlineBlock.judge o.inlineLimit (t :: ts) = .fits →
        Alike s.beforeBracket u'.beforeBracket)) :
    InLockstep o 0 (s.after o index t ts) (u'.after o j v us) := by
  have hafter : Alike (s.after o index t ts) (u'.after o j v us) :=
    halike.after ho.wrap hheld h.commas hcopy.1 hcopy.2 hb hc hcomma hopen
  have hcomma' : v.kind = .operator → v.text = [','] → 0 < u'.inlineDepth ∨ u'.inLimit = true := by
    intro hk htext
    rw [← halike.inlineDepth, ← halike.inLimit]
    exact hcomma (hcopy.1.symm.trans hk) ((hcopy.text_eq_singleton (by decide)).mp htext)
  exact {
    alike := fun _ => hafter
    alike' := by simp
    held := held_after_eq_nil hproper hb hc hcomma index ts
    held' := held_after_eq_nil hproper' (hcopy.1 ▸ hb) (hcopy.1 ▸ hc) hcomma' j us
    overflow := overflow_after ho h.overflow index ts
    outside := by simp
    bracket := fun _ hp => .inl (by rw [← hp]; exact congrArg some hcopy.1.symm)
    solid := fun hp => hb (hcopy.1.symm.trans (Option.some.inj hp)) }

end InLockstep

end Draft

end SqlLayout
