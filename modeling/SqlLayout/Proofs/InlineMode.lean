import SqlLayout.Proofs.Lookahead

/-!
# Inline mode

An opening bracket begins an inline block if looking ahead finds its closing bracket soon enough.
From there on the layout counts brackets on its own. The two counts agree: the block ends at the
bracket that the one in front belongs to, and no line begins in between.
-/

namespace SqlLayout

open InlineBlock

def openings (ts : List Token) : Nat :=
  ts.countP fun t => t.kind = .opening

def closings (ts : List Token) : Nat :=
  ts.countP fun t => t.kind = .closing

section

variable (t : Token) (ts : List Token)

lemma openings_cons : openings (t :: ts) = (if t.kind = .opening then 1 else 0) + openings ts := by
  simp [openings, List.countP_cons, Nat.add_comm]

lemma closings_cons : closings (t :: ts) = (if t.kind = .closing then 1 else 0) + closings ts := by
  simp [closings, List.countP_cons, Nat.add_comm]

end

/-- An opening and a closing bracket at two places belong together: between them as many brackets
are closed as are opened, and never more. -/
def Matches (ts : List Token) (i j : Nat) : Prop :=
  ∃ front u inner t rest, ts = front ++ u :: (inner ++ t :: rest) ∧ front.length = i ∧
    j = i + 1 + inner.length ∧ u.kind = .opening ∧ t.kind = .closing ∧
    openings inner = closings inner ∧ ∀ part, part <+: inner → closings part ≤ openings part

/-- A closing bracket ends as many brackets as are open in front of the given tokens, and none of
these tokens breaks the line. -/
inductive Encloses : Nat → List Token → Token → Prop
  | last {t : Token} : t.kind = .closing → Encloses 1 [] t
  | opening {d : Nat} {u t : Token} {us : List Token} : 0 < d → u.kind = .opening →
      breaksLine u = false → Encloses (d + 1) us t → Encloses d (u :: us) t
  | closing {d : Nat} {u t : Token} {us : List Token} : u.kind = .closing → breaksLine u = false →
      Encloses d us t → Encloses (d + 1) (u :: us) t
  | other {d : Nat} {u t : Token} {us : List Token} : u.kind ≠ .opening → u.kind ≠ .closing →
      u.kind = .blank ∨ breaksLine u = false → Encloses d us t → Encloses d (u :: us) t

namespace Encloses

variable {d : Nat} {us : List Token} {t : Token}

lemma pos (h : Encloses d us t) : 0 < d := by
  induction h with
  | last => omega
  | opening hd => exact hd
  | closing => omega
  | other _ _ _ _ ih => exact ih

lemma plain (h : Encloses d us t) : ∀ u ∈ us, u.kind = .blank ∨ breaksLine u = false := by
  induction h with
  | last => simp
  | opening _ _ hu _ ih | closing _ hu _ ih => exact List.forall_mem_cons.mpr ⟨.inr hu, ih⟩
  | other _ _ hu _ ih => exact List.forall_mem_cons.mpr ⟨hu, ih⟩

lemma last_kind (h : Encloses d us t) : t.kind = .closing := by
  induction h with
  | last ht => exact ht
  | opening _ _ _ _ ih | closing _ _ _ ih | other _ _ _ _ ih => exact ih

lemma balance (h : Encloses d us t) : d + openings us = closings us + 1 := by
  induction h with
  | last => rfl
  | opening _ hu _ _ ih | closing hu _ _ ih =>
    simp only [openings_cons, closings_cons, hu, if_true, reduceCtorEq, if_false]
    omega
  | other ho hc _ _ ih =>
    rw [openings_cons, closings_cons, if_neg ho, if_neg hc]
    omega

lemma nested (h : Encloses d us t) : ∀ part, part <+: us → closings part < d + openings part := by
  have hnil : closings [] = 0 := rfl
  induction h with
  | last =>
    intro part hpart
    rw [List.prefix_nil.mp hpart]
    omega
  | @opening d u t us hd hu _ _ ih =>
    intro part hpart
    rcases List.prefix_cons_iff.mp hpart with rfl | ⟨part', rfl, hpart'⟩
    · omega
    · have := ih part' hpart'
      simp only [openings_cons, closings_cons, hu, if_true, reduceCtorEq, if_false]
      omega
  | @closing d u t us hu _ hrest ih =>
    intro part hpart
    rcases List.prefix_cons_iff.mp hpart with rfl | ⟨part', rfl, hpart'⟩
    · omega
    · have := ih part' hpart'
      simp only [openings_cons, closings_cons, hu, if_true, reduceCtorEq, if_false]
      omega
  | @other d u t us ho hc _ hrest ih =>
    intro part hpart
    have hpos := hrest.pos
    rcases List.prefix_cons_iff.mp hpart with rfl | ⟨part', rfl, hpart'⟩
    · omega
    · have := ih part' hpart'
      rw [openings_cons, closings_cons, if_neg ho, if_neg hc]
      omega

lemma matches_of_opening (h : Encloses 1 us t) {u : Token} (hu : u.kind = .opening) (front rest : List Token) :
    Matches (front ++ u :: (us ++ t :: rest)) front.length (front.length + 1 + us.length) := by
  have hbalance := h.balance
  refine ⟨front, u, us, t, rest, rfl, rfl, rfl, hu, h.last_kind, by omega, fun part hpart => ?_⟩
  have := h.nested part hpart
  omega

lemma exists_inner (h : Encloses d us t) {e : Nat} (he : 0 < e) (hed : e ≤ d) :
    ∃ us' t' rest, us ++ [t] = us' ++ t' :: rest ∧ Encloses e us' t' := by
  induction h generalizing e with
  | @last t ht =>
    obtain rfl : e = 1 := by omega
    exact ⟨[], t, [], rfl, .last ht⟩
  | @opening d u t us hd hu hplain _ ih =>
    obtain ⟨us', t', rest, hsplit, h'⟩ := ih (e := e + 1) (by omega) (by omega)
    exact ⟨u :: us', t', rest, congrArg (u :: ·) hsplit, .opening he hu hplain h'⟩
  | @closing d u t us hu hplain _ ih =>
    by_cases hone : e = 1
    · subst hone
      exact ⟨[], u, us ++ [t], rfl, .last hu⟩
    · obtain ⟨us', t', rest, hsplit, h'⟩ := ih (e := e - 1) (by omega) (by omega)
      refine ⟨u :: us', t', rest, congrArg (u :: ·) hsplit, ?_⟩
      obtain ⟨f, rfl⟩ : ∃ f, e = f + 1 := ⟨e - 1, by omega⟩
      exact .closing hu hplain h'
  | @other d u t us ho hc hplain _ ih =>
    obtain ⟨us', t', rest, hsplit, h'⟩ := ih he hed
    exact ⟨u :: us', t', rest, congrArg (u :: ·) hsplit, .other ho hc hplain h'⟩

end Encloses

/-! ### Looking ahead -/

/-- If looking ahead ends at a closing bracket, that bracket closes all that are open. -/
lemma exists_encloses_of_judgeFrom {limit : Int} {p : Option Token} {length d : Nat} {ts : List Token}
    (hd : 0 < d) (h : judgeFrom limit p length d ts = .fits) :
    ∃ us t rest, ts = us ++ t :: rest ∧ Encloses d us t := by
  induction ts generalizing p length d with
  | nil => simp [judgeFrom] at h
  | cons u ts ih =>
    by_cases hb : u.kind = .blank
    · rw [judgeFrom_blank hb] at h
      obtain ⟨us, t, rest, rfl, hrest⟩ := ih hd h
      exact ⟨u :: us, t, rest, rfl, .other (by simp [hb]) (by simp [hb]) (.inl hb) hrest⟩
    rw [judgeFrom_cons hb] at h
    split at h
    · simp at h
    split at h
    · next hlast =>
      have hdepth : (d : Int) - 1 = 0 := by simpa [depthAfter, hlast.1] using hlast.2
      obtain rfl : d = 1 := by omega
      exact ⟨[], u, ts, rfl, .last hlast.1⟩
    next hlast =>
    split at h
    · simp at h
    next hplain =>
    rw [Bool.not_eq_true] at hplain
    by_cases ho : u.kind = .opening
    · have hdepth : depthAfter d u = (d + 1 : Nat) := by simp [depthAfter, ho]
      rw [hdepth] at h
      obtain ⟨us, t, rest, rfl, hrest⟩ := ih (by omega) h
      exact ⟨u :: us, t, rest, rfl, .opening hd ho hplain hrest⟩
    by_cases hc : u.kind = .closing
    · have hdepth : depthAfter d u = (d - 1 : Nat) := by
        simp only [depthAfter, hc]
        omega
      have hne : d ≠ 1 := by
        rintro rfl
        exact hlast ⟨hc, by simp [depthAfter, hc]⟩
      rw [hdepth] at h
      obtain ⟨us, t, rest, rfl, hrest⟩ := ih (by omega) h
      obtain ⟨e, rfl⟩ : ∃ e, d = e + 1 := ⟨d - 1, by omega⟩
      exact ⟨u :: us, t, rest, rfl, .closing hc hplain hrest⟩
    · have hdepth : depthAfter d u = d := by
        revert ho hc
        cases hk : u.kind <;> simp [depthAfter, hk]
      rw [hdepth] at h
      obtain ⟨us, t, rest, rfl, hrest⟩ := ih hd h
      exact ⟨u :: us, t, rest, rfl, .other ho hc (.inr hplain) hrest⟩

lemma exists_encloses_of_judge {limit : Int} {u : Token} {ts : List Token} (hu : u.kind = .opening)
    (h : judge limit (u :: ts) = .fits) : ∃ us t rest, ts = us ++ t :: rest ∧ Encloses 1 us t := by
  rw [judge, judgeFrom_cons (by simp [hu])] at h
  split at h
  · simp at h
  split at h
  · next hlast => simp [hu] at hlast
  split at h
  · simp at h
  have hdepth : depthAfter 0 u = (1 : Nat) := by simp [depthAfter, hu]
  rw [hdepth] at h
  exact exists_encloses_of_judgeFrom (by omega) h

/-! ### The depth that the layout counts -/

namespace Draft

section

variable {o : Options} {s s' : Draft} {index : Nat} {t : Token} {rest ts : List Token}

lemma inlineDepth_writeWrapped (text : Text) : (s.writeWrapped o text).inlineDepth = s.inlineDepth := by
  unfold writeWrapped wrapBefore
  split <;> rfl

lemma inlineDepth_keyword (role : Role) (own text : Text) :
    (s.keyword o role own text).inlineDepth = s.inlineDepth := by
  cases role with
  | clause | indented => rfl
  | breaking =>
    unfold keyword breakingKeyword
    dsimp only
    split <;> rfl
  | plain => exact inlineDepth_writeWrapped _

lemma inlineDepth_comma (text : Text) : (s.comma o text).inlineDepth = s.inlineDepth := by
  rw [comma]
  split
  · rfl
  · split <;> rfl

lemma inlineDepth_operator (own text : Text) : (s.operator o own text).inlineDepth = s.inlineDepth := by
  rw [operator]
  split
  · exact inlineDepth_comma text
  split
  · rfl
  split
  · rfl
  split
  · rfl
  · exact inlineDepth_writeWrapped text

lemma inlineDepth_opening (text : Text) :
    (s.opening o index ts text).inlineDepth = enter o.inlineLimit s.inlineDepth ts := by
  have hbefore : s.beforeBracket.dropOverflow.inlineDepth = s.inlineDepth := by
    unfold beforeBracket
    split <;> rfl
  rw [opening_eq, enter]
  split
  · rfl
  · next hz =>
    split
    · next hj =>
      rw [if_pos hj]
      rfl
    · next hj =>
      rw [if_neg (by simp [hj])]
      exact hbefore.trans (Nat.eq_zero_of_not_pos hz)
    · next hj =>
      rw [if_neg (by simp [hj])]
      exact hbefore.trans (Nat.eq_zero_of_not_pos hz)

lemma inlineDepth_of_step (h : s.step o index t rest = .ok s') :
    s'.inlineDepth =
      if t.kind = .opening then enter o.inlineLimit s.inlineDepth (t :: rest)
      else if t.kind = .closing then leave s.inlineDepth
      else s.inlineDepth := by
  obtain ⟨c, used, -, rfl⟩ := exists_placed_of_step h
  change (s.placed o index t rest c used).inlineDepth = _
  unfold placed
  cases hk : t.kind with
  | blank | unclassified | lineComment | blockComment | placeholder => rfl
  | keyword role => exact inlineDepth_keyword (s := { s with held := [] }) role _ _
  | opening => exact inlineDepth_opening (s := { s with held := [] }) _
  | closing =>
    simp only [reduceCtorEq, if_false, if_true]
    unfold closing
    split
    · rfl
    · next hz => exact (show s.inlineDepth = _ by rw [leave]; change ¬0 < s.inlineDepth at hz; omega)
  | operator => exact inlineDepth_operator (s := { s with held := [] }) _ _
  | word | quoted | number => exact inlineDepth_writeWrapped (s := { s with held := [] }) _

end

lemma enters_of_step {o : Options} {s s' : Draft} {index : Nat} {t : Token} {rest : List Token}
    (h : s.step o index t rest = .ok s') (hzero : s.inlineDepth = 0) (hpos : 0 < s'.inlineDepth) :
    t.kind = .opening ∧ judge o.inlineLimit (t :: rest) = .fits ∧ s'.inlineDepth = 1 := by
  have hdepth := inlineDepth_of_step h
  have ho : t.kind = .opening := by
    by_contra ho
    rw [if_neg ho, hzero, leave, Nat.zero_sub, ite_self] at hdepth
    omega
  rw [if_pos ho, enter, hzero, if_neg (by omega)] at hdepth
  split at hdepth
  · next hfits => exact ⟨ho, hfits, hdepth⟩
  · omega

/-- A step that begins no line: the page keeps its text, or loses blanks at its end, and goes on with
nothing but the text of the token, behind commas that were held back, and at most one space. -/
def StaysOnLine (o : Options) (s : Draft) (t : Token) (s' : Draft) : Prop :=
  ∃ c used kept added, t.chunk o s.used = .ok (c, used) ∧
    (kept = s.page.text ∨ kept = s.page.text.trimEnd) ∧ s'.page.text = kept ++ added ∧
    (added = [] ∨ ∃ y ∈ [s.held ++ c, Text.collapse (s.held ++ c)], added = y ∨ added = y ++ [' '])

section

variable {o : Options} {s : Draft} {index : Nat} {t : Token} {rest : List Token}

lemma page_writeWrapped (ho : o.maxLineLength = 0) (text : Text) :
    (s.writeWrapped o text).page.text = s.page.text ++ (text ++ [' ']) := by
  have hwrap : s.wrapBefore o text = s := if_neg (by simp [ho])
  rw [writeWrapped, hwrap, writeSpaced, write, Page.text_append]

lemma page_writeAttached (text : Text) :
    (s.writeAttached text).page.text = s.page.text.trimEnd ++ (text ++ [' ']) := by
  rw [writeAttached, writeSpaced, write, Page.text_append, trimEnd, Page.text_trimEnd]

lemma page_writeTight (text : Text) : (s.writeTight text).page.text = s.page.text.trimEnd ++ text := by
  rw [writeTight, write, Page.text_append, trimEnd, Page.text_trimEnd]

lemma text_beforeBracket (s : Draft) :
    s.beforeBracket.page.text = s.page.text ∨ s.beforeBracket.page.text = s.page.text.trimEnd := by
  unfold beforeBracket
  split
  · exact .inl rfl
  · exact .inr (Page.text_trimEnd s.page)

lemma page_operator (ho : o.maxLineLength = 0) (hdepth : 0 < s.inlineDepth) {own : Text}
    (hown : own ≠ [';']) (text : Text) :
    ∃ kept added, (kept = s.page.text ∨ kept = s.page.text.trimEnd) ∧
      (s.operator o own text).page.text = kept ++ added ∧ (added = text ∨ added = text ++ [' ']) := by
  rw [operator]
  split
  · have hinline : 0 < s.dropOverflow.inlineDepth ∨ s.dropOverflow.inLimit = true := .inl hdepth
    rw [comma, if_pos hinline]
    exact ⟨_, _, .inr rfl, page_writeAttached text, .inr rfl⟩
  split
  · exact ⟨_, _, .inr rfl, page_writeAttached text, .inr rfl⟩
  split
  · exact ⟨_, _, .inr rfl, page_writeTight text, .inl rfl⟩
  exact ⟨_, _, .inl rfl, page_writeWrapped ho text, .inr rfl⟩

/-- From the bracket that begins an inline block to the one that ends it, no token begins a line. -/
lemma staysOnLine_of_step {s' : Draft} (ho : o.maxLineLength = 0) (h : s.step o index t rest = .ok s')
    (hinline : 0 < s.inlineDepth ∨ t.kind = .opening ∧ judge o.inlineLimit (t :: rest) = .fits)
    (ht : t.kind = .blank ∨ t.kind = .opening ∨ t.kind = .closing ∨ breaksLine t = false) :
    StaysOnLine o s t s' := by
  obtain ⟨c, used, hchunk, rfl⟩ := exists_placed_of_step h
  suffices hpage : ∃ kept added, (kept = s.page.text ∨ kept = s.page.text.trimEnd) ∧
      (s.placed o index t rest c used).page.text = kept ++ added ∧
      (added = [] ∨ ∃ y ∈ [s.held ++ c, Text.collapse (s.held ++ c)], added = y ∨ added = y ++ [' ']) by
    obtain ⟨kept, added, hpage⟩ := hpage
    exact ⟨c, used, kept, added, hchunk, hpage⟩
  unfold placed
  unfold Token.chunk at hchunk
  have hdepth : t.kind ≠ .opening → 0 < s.inlineDepth := fun hk => hinline.resolve_right fun h => hk h.1
  cases hk : t.kind with
  | blank | unclassified => exact ⟨_, [], .inl rfl, (List.append_nil _).symm, .inl rfl⟩
  | lineComment | blockComment => simp [hk, breaksLine] at ht
  | keyword role =>
    simp only [hk] at hchunk
    obtain ⟨rfl, -⟩ := Prod.mk.inj (Except.ok.inj hchunk)
    obtain rfl : role = .plain := by
      cases role <;> simp [hk, breaksLine] at ht ⊢
    exact ⟨_, _, .inl rfl, page_writeWrapped (s := { s with held := [] }) ho _, .inr ⟨_, by simp, .inr rfl⟩⟩
  | opening =>
    simp only [hk] at hchunk
    obtain ⟨rfl, -⟩ := Prod.mk.inj (Except.ok.inj hchunk)
    have hopen := page_opening (s := { s with held := [] }) (hinline.imp_right fun h => h.2) index
      (s.held ++ t.text)
    refine ⟨s.beforeBracket.page.text, s.held ++ t.text, ?_, ?_, .inr ⟨_, by simp, .inl rfl⟩⟩
    · exact text_beforeBracket s
    · rw [hopen, Page.text_append, page_beforeBracket_of_held]
  | closing =>
    simp only [hk] at hchunk
    obtain ⟨rfl, -⟩ := Prod.mk.inj (Except.ok.inj hchunk)
    have hpos : 0 < { s with held := [] }.inlineDepth := hdepth (by simp [hk])
    refine ⟨_, _, .inr rfl, ?_, .inr ⟨s.held ++ t.text, by simp, .inr rfl⟩⟩
    simp only [closing, if_pos hpos]
    exact page_writeAttached _
  | placeholder =>
    refine ⟨_, _, .inl rfl, ?_, .inr ⟨s.held ++ c, by simp, .inr rfl⟩⟩
    simp only [writeSpaced, write, Page.text_append]
  | operator =>
    simp only [hk] at hchunk
    obtain ⟨rfl, -⟩ := Prod.mk.inj (Except.ok.inj hchunk)
    have hown : t.text ≠ [';'] := by
      intro htext
      simp [hk, breaksLine, Token.isText, htext] at ht
    obtain ⟨kept, added, hkept, hpage, hadded⟩ := page_operator (s := { s with held := [] }) ho
      (hdepth (by simp [hk])) hown (s.held ++ t.text)
    exact ⟨kept, added, hkept, hpage, .inr ⟨_, by simp, hadded⟩⟩
  | word | quoted | number =>
    simp only [hk] at hchunk
    obtain ⟨rfl, -⟩ := Prod.mk.inj (Except.ok.inj hchunk)
    exact ⟨_, _, .inl rfl, page_writeWrapped (s := { s with held := [] }) ho _, .inr ⟨_, by simp, .inr rfl⟩⟩

end

/-! ### Runs -/

/-- The draft that a run from another one has come to behind the given number of tokens. -/
def draftAt (s : Draft) (drafts : List Draft) (k : Nat) : Draft :=
  (s :: drafts).getD k {}

lemma draftAt_succ (s s' : Draft) (drafts : List Draft) (k : Nat) :
    draftAt s (s' :: drafts) (k + 1) = draftAt s' drafts k := rfl

section

variable {o : Options} {s : Draft} {index : Nat} {t : Token} {ts : List Token} {drafts : List Draft}

lemma steps_cons_inv (h : s.steps o index (t :: ts) = (drafts, none)) :
    ∃ s' later, s.step o index t ts = .ok s' ∧ s'.steps o (index + 1) ts = (later, none) ∧
      drafts = s' :: later := by
  cases hstep : s.step o index t ts with
  | error e => simp [steps, hstep] at h
  | ok s' =>
    rw [steps_cons_ok hstep, Prod.mk.injEq] at h
    exact ⟨s', _, rfl, Prod.ext rfl h.2, h.1.symm⟩

lemma length_steps (h : s.steps o index ts = (drafts, none)) : drafts.length = ts.length := by
  induction ts generalizing s index drafts with
  | nil =>
    obtain rfl : [] = drafts := congrArg Prod.fst h
    rfl
  | cons t ts ih =>
    obtain ⟨s', later, -, hlater, rfl⟩ := steps_cons_inv h
    simp [ih hlater]

lemma steps_from {failure : Option LayoutError} (h : s.steps o index ts = (drafts, failure)) {i : Nat}
    (hi : i ≤ drafts.length) :
    (draftAt s drafts i).steps o (index + i) (ts.drop i) = (drafts.drop i, failure) := by
  induction i generalizing s index ts drafts with
  | zero => exact h
  | succ i ih =>
    cases drafts with
    | nil => simp at hi
    | cons s' later =>
      cases ts with
      | nil => simp [steps] at h
      | cons t ts =>
        cases hstep : s.step o index t ts with
        | error e => simp [steps, hstep] at h
        | ok s₁ =>
          rw [steps_cons_ok hstep, Prod.mk.injEq, List.cons.injEq] at h
          obtain ⟨⟨rfl, hlater⟩, hfailure⟩ := h
          have hrest := ih (Prod.ext hlater hfailure) (by simpa using hi)
          rw [Nat.add_right_comm] at hrest
          exact hrest

lemma steps_drop (h : s.steps o index ts = (drafts, none)) {i : Nat} (hi : i ≤ ts.length) :
    (draftAt s drafts i).steps o (index + i) (ts.drop i) = (drafts.drop i, none) :=
  steps_from h (length_steps h ▸ hi)

lemma draftAt_drop (hi : index ≤ drafts.length) (k : Nat) :
    draftAt (draftAt s drafts index) (drafts.drop index) k = draftAt s drafts (index + k) := by
  induction index generalizing s drafts with
  | zero => rw [Nat.zero_add]; rfl
  | succ i ih =>
    cases drafts with
    | nil => simp at hi
    | cons s' drafts =>
      rw [Nat.add_right_comm, draftAt_succ, draftAt_succ, List.drop_succ_cons]
      exact ih (by simpa using hi)

/-- Whatever is open in inline mode is closed by the tokens to come. -/
def Closing (s : Draft) (ts : List Token) : Prop :=
  0 < s.inlineDepth → ∃ us t rest, ts = us ++ t :: rest ∧ Encloses s.inlineDepth us t

lemma Closing.step {s' : Draft} (h : s.Closing (t :: ts)) (hstep : s.step o index t ts = .ok s') :
    s'.Closing ts := by
  intro hpos
  have hdepth := inlineDepth_of_step hstep
  by_cases hz : s.inlineDepth = 0
  · obtain ⟨ho, hfits, hone⟩ := enters_of_step hstep hz hpos
    rw [hone]
    exact exists_encloses_of_judge ho hfits
  obtain ⟨us, v, rest, hsplit, hencloses⟩ := h (Nat.pos_of_ne_zero hz)
  generalize s.inlineDepth = d at hdepth hz hencloses
  cases hencloses with
  | last hv =>
    obtain ⟨rfl, rfl⟩ := List.cons.inj hsplit
    rw [if_neg (by simp [hv]), if_pos hv] at hdepth
    exact absurd hdepth (by simp only [leave]; omega)
  | @opening _ u _ us hd hu _ hrest =>
    obtain ⟨rfl, rfl⟩ := List.cons.inj hsplit
    rw [if_pos hu, enter, if_pos hd] at hdepth
    exact ⟨us, v, rest, rfl, hdepth ▸ hrest⟩
  | @closing d u _ us hu _ hrest =>
    obtain ⟨rfl, rfl⟩ := List.cons.inj hsplit
    rw [if_neg (by simp [hu]), if_pos hu, leave, Nat.add_sub_cancel] at hdepth
    exact ⟨us, v, rest, rfl, hdepth ▸ hrest⟩
  | @other _ u _ us ho hc _ hrest =>
    obtain ⟨rfl, rfl⟩ := List.cons.inj hsplit
    rw [if_neg ho, if_neg hc] at hdepth
    exact ⟨us, v, rest, rfl, hdepth ▸ hrest⟩

lemma Closing.steps (h : s.Closing ts) (hsteps : s.steps o index ts = (drafts, none)) {i : Nat}
    (hi : i ≤ ts.length) : (draftAt s drafts i).Closing (ts.drop i) := by
  induction i generalizing s index ts drafts with
  | zero => exact h
  | succ i ih =>
    cases ts with
    | nil => simp at hi
    | cons t ts =>
      obtain ⟨s', later, hstep, hlater, rfl⟩ := steps_cons_inv hsteps
      exact ih (h.step hstep) hlater (by simpa using hi)

end

/-- A run through the rest of an inline block: inline mode stays on for the given number of tokens, the
next one ends it, and none of them begins a line. -/
structure RunsInline (o : Options) (s : Draft) (ts : List Token) (drafts : List Draft) (n : Nat) : Prop where
  active : ∀ k ≤ n, 0 < (draftAt s drafts k).inlineDepth
  ended : (draftAt s drafts (n + 1)).inlineDepth = 0
  onLine : o.maxLineLength = 0 → ∀ k ≤ n, ∀ t ∈ ts[k]?,
    StaysOnLine o (draftAt s drafts k) t (draftAt s drafts (k + 1))

lemma RunsInline.cons {o : Options} {s s' : Draft} {index n : Nat} {t : Token} {ts : List Token}
    {drafts : List Draft} (h : RunsInline o s' ts drafts n) (hpos : 0 < s.inlineDepth)
    (hstep : s.step o index t ts = .ok s')
    (ht : t.kind = .blank ∨ t.kind = .opening ∨ t.kind = .closing ∨ breaksLine t = false) :
    RunsInline o s (t :: ts) (s' :: drafts) (n + 1) where
  active := by
    intro k hk
    cases k with
    | zero => exact hpos
    | succ k => exact h.active k (by omega)
  ended := h.ended
  onLine := by
    intro ho k hk v hv
    cases k with
    | zero =>
      obtain rfl : t = v := by simpa using hv
      exact staysOnLine_of_step ho hstep (.inl hpos) ht
    | succ k => exact h.onLine ho k (by omega) v (by simpa using hv)

lemma runsInline_of_encloses {o : Options} {d : Nat} {us : List Token} {t : Token} (h : Encloses d us t)
    {s : Draft} {index : Nat} {rest : List Token} {drafts : List Draft} (hd : s.inlineDepth = d)
    (hsteps : s.steps o index (us ++ t :: rest) = (drafts, none)) :
    RunsInline o s (us ++ t :: rest) drafts us.length := by
  have hpos : 0 < s.inlineDepth := hd ▸ h.pos
  induction h generalizing s index drafts with
  | @last t ht =>
    obtain ⟨s', later, hstep, -, rfl⟩ := steps_cons_inv hsteps
    have hdepth := inlineDepth_of_step hstep
    rw [if_neg (by simp [ht]), if_pos ht, hd] at hdepth
    refine ⟨fun k hk => ?_, hdepth, fun ho k hk v hv => ?_⟩
    · obtain rfl : k = 0 := by simpa using hk
      exact hpos
    · obtain rfl : k = 0 := by simpa using hk
      obtain rfl : t = v := by simpa using hv
      exact staysOnLine_of_step ho hstep (.inl hpos) (.inr (.inr (.inl ht)))
  | opening _ hu hplain hrest ih =>
    obtain ⟨s', later, hstep, hlater, rfl⟩ := steps_cons_inv hsteps
    have hdepth := inlineDepth_of_step hstep
    rw [if_pos hu, enter, if_pos hpos, hd] at hdepth
    exact (ih hdepth hlater (hdepth ▸ hrest.pos)).cons hpos hstep (.inr (.inl hu))
  | closing hu hplain hrest ih =>
    obtain ⟨s', later, hstep, hlater, rfl⟩ := steps_cons_inv hsteps
    have hdepth := inlineDepth_of_step hstep
    rw [if_neg (by simp [hu]), if_pos hu, hd, leave, Nat.add_sub_cancel] at hdepth
    exact (ih hdepth hlater (hdepth ▸ hrest.pos)).cons hpos hstep (.inr (.inr (.inl hu)))
  | other ho hc hplain hrest ih =>
    obtain ⟨s', later, hstep, hlater, rfl⟩ := steps_cons_inv hsteps
    have hdepth := inlineDepth_of_step hstep
    rw [if_neg ho, if_neg hc, hd] at hdepth
    exact (ih hdepth hlater (hdepth ▸ hrest.pos)).cons hpos hstep (hplain.imp_right (.inr ∘ .inr))

end Draft

open Draft

lemma exists_matches_of_inlineDepth {o : Options} {ts : List Token} {drafts : List Draft}
    (h : steps o {} 0 ts = (drafts, none)) {i : Nat} {u : Token} (hu : u ∈ ts[i]?)
    (ho : u.kind = .opening) (hpos : 0 < (draftAt {} drafts (i + 1)).inlineDepth) :
    ∃ j, Matches ts i j := by
  obtain ⟨hi, rfl⟩ := List.getElem?_eq_some_iff.mp hu
  have hclosing : Closing {} ts := fun h => absurd h (by decide)
  obtain ⟨us, t, rest, hsplit, hencloses⟩ := hclosing.steps h (i := i + 1) (by omega) hpos
  obtain ⟨us', t', rest', hinner, h'⟩ := hencloses.exists_inner (e := 1) (by omega) hpos
  have hts : ts = ts.take i ++ ts[i] :: (us' ++ t' :: (rest' ++ rest)) := by
    have hrest : us' ++ t' :: (rest' ++ rest) = ts.drop (i + 1) := by
      rw [hsplit, ← List.cons_append, ← List.append_assoc, ← hinner, List.append_assoc]
      rfl
    rw [hrest, ← List.drop_eq_getElem_cons, List.take_append_drop]
  have hmatches := h'.matches_of_opening ho (ts.take i) (rest' ++ rest)
  rw [← hts, List.length_take_of_le (by omega)] at hmatches
  exact ⟨_, hmatches⟩

/-- Where inline mode begins, a run of its own goes through a block. -/
lemma exists_block_of_enters {o : Options} {ts : List Token} {drafts : List Draft}
    (h : steps o {} 0 ts = (drafts, none)) {i : Nat} (hzero : (draftAt {} drafts i).inlineDepth = 0)
    (hpos : 0 < (draftAt {} drafts (i + 1)).inlineDepth) :
    ∃ front u inner v rest later, ts = front ++ u :: (inner ++ v :: rest) ∧ front.length = i ∧
      u.kind = .opening ∧ judge o.inlineLimit (u :: (inner ++ v :: rest)) = .fits ∧ Encloses 1 inner v ∧
      (draftAt {} drafts i).step o i u (inner ++ v :: rest) = .ok (draftAt {} drafts (i + 1)) ∧
      (draftAt {} drafts (i + 1)).steps o (i + 1) (inner ++ v :: rest) = (later, none) ∧
      (∀ k, draftAt {} drafts (i + 1 + k) = draftAt (draftAt {} drafts (i + 1)) later k) ∧
      (draftAt {} drafts (i + 1)).inlineDepth = 1 := by
  have hlength := length_steps h
  have hi : i < ts.length := by
    by_contra hi
    have hdefault : draftAt {} drafts (i + 1) = {} := by
      rw [draftAt, List.getD_eq_getElem?_getD, List.getElem?_eq_none (by simp only [List.length_cons]; omega)]
      rfl
    rw [hdefault] at hpos
    exact absurd hpos (by decide)
  have hrest := steps_drop h hi.le
  rw [List.drop_eq_getElem_cons hi, Nat.zero_add] at hrest
  obtain ⟨s', later, hstep, hlater, hdrafts⟩ := steps_cons_inv hrest
  have hat : ∀ k, draftAt {} drafts (i + 1 + k) = draftAt s' later k := by
    intro k
    have hk : draftAt (draftAt {} drafts i) (drafts.drop i) (k + 1) = draftAt {} drafts (i + (k + 1)) :=
      draftAt_drop (by omega) _
    rw [hdrafts, draftAt_succ] at hk
    rw [hk, Nat.add_right_comm, Nat.add_assoc]
  obtain rfl : draftAt {} drafts (i + 1) = s' := hat 0
  obtain ⟨ho, hfits, hone⟩ := enters_of_step hstep hzero hpos
  obtain ⟨us, v, rest, hsplit, hencloses⟩ := exists_encloses_of_judge ho hfits
  rw [hsplit] at hfits hstep hlater
  refine ⟨ts.take i, ts[i], us, v, rest, later, ?_, List.length_take_of_le hi.le, ho, hfits, hencloses,
    hstep, hlater, hat, hone⟩
  rw [← hsplit, ← List.drop_eq_getElem_cons, List.take_append_drop]

/-- Looking ahead and inline mode agree. Where an opening bracket turns inline mode on, it has a
closing bracket; inline mode is on behind every token in front of that bracket and off behind it; no
token between the two breaks the line; and unless lines are wrapped, no line begins from the one
bracket to the other. A bracket that is never closed does not turn inline mode on. -/
theorem inline_mode_of_lookahead (o : Options) (ts : List Token) (drafts : List Draft)
    (h : steps o {} 0 ts = (drafts, none)) (i : Nat) :
    ((draftAt {} drafts i).inlineDepth = 0 → 0 < (draftAt {} drafts (i + 1)).inlineDepth →
      (draftAt {} drafts (i + 1)).inlineDepth = 1 ∧
      ∃ j, Matches ts i j ∧
        (∀ k, i ≤ k → k < j → 0 < (draftAt {} drafts (k + 1)).inlineDepth) ∧
        (draftAt {} drafts (j + 1)).inlineDepth = 0 ∧
        (∀ k, i < k → k < j → ∀ t ∈ ts[k]?, t.kind = .blank ∨ breaksLine t = false) ∧
        (o.maxLineLength = 0 → ∀ k, i ≤ k → k ≤ j → ∀ t ∈ ts[k]?,
          StaysOnLine o (draftAt {} drafts k) t (draftAt {} drafts (k + 1)))) ∧
    (∀ t ∈ ts[i]?, t.kind = .opening → (∀ j, ¬Matches ts i j) →
      (draftAt {} drafts (i + 1)).inlineDepth = 0) := by
  refine ⟨fun hzero hpos => ?_, fun t ht ho hnone => ?_⟩
  · obtain ⟨front, u, us, t, rest, later, rfl, rfl, ho, hfits, hencloses, hstep, hlater, hat, hdepth⟩ :=
      exists_block_of_enters h hzero hpos
    have hmatches := hencloses.matches_of_opening ho front rest
    have hrun := runsInline_of_encloses hencloses hdepth hlater
    have hget : ∀ k, (front ++ u :: (us ++ t :: rest))[front.length + 1 + k]? = (us ++ t :: rest)[k]? := by
      intro k
      rw [List.getElem?_append_right (by omega), Nat.add_assoc, Nat.add_sub_cancel_left, Nat.add_comm 1,
        List.getElem?_cons_succ]
    refine ⟨hdepth, front.length + 1 + us.length, hmatches, fun k hik hkj => ?_, ?_,
      fun k hik hkj v hv => ?_, fun hwrap k hik hkj v hv => ?_⟩
    · obtain ⟨m, rfl⟩ : ∃ m, k = front.length + m := ⟨k - front.length, by omega⟩
      rw [Nat.add_right_comm, hat]
      exact hrun.active m (by omega)
    · rw [Nat.add_assoc (front.length + 1), hat]
      exact hrun.ended
    · obtain ⟨m, rfl⟩ : ∃ m, k = front.length + 1 + m := ⟨k - (front.length + 1), by omega⟩
      rw [hget, List.getElem?_append_left (by omega)] at hv
      exact hencloses.plain v (List.mem_of_getElem? hv)
    · by_cases hk : k = front.length
      · subst hk
        obtain rfl : u = v := by simpa using hv
        exact staysOnLine_of_step hwrap hstep (.inr ⟨ho, hfits⟩) (.inr (.inl ho))
      · obtain ⟨m, rfl⟩ : ∃ m, k = front.length + 1 + m := ⟨k - (front.length + 1), by omega⟩
        rw [hget] at hv
        rw [Nat.add_assoc (front.length + 1), hat, hat]
        exact hrun.onLine hwrap m (by omega) v hv
  · by_contra hne
    obtain ⟨j, hj⟩ := exists_matches_of_inlineDepth h ht ho (by omega)
    exact hnone j hj

def nestedBlock : List Token :=
  [⟨.opening, ['('], none, none⟩, ⟨.opening, ['C', 'A', 'S', 'E'], none, none⟩, ⟨.blank, [' '], none, none⟩,
    ⟨.word, ['a'], none, none⟩, ⟨.blank, [' '], none, none⟩, ⟨.closing, ['E', 'N', 'D'], none, none⟩,
    ⟨.operator, [','], none, none⟩, ⟨.opening, ['('], none, none⟩, ⟨.number, ['1'], none, none⟩,
    ⟨.closing, [')'], none, none⟩, ⟨.closing, [')'], none, none⟩]

theorem inline_mode_of_lookahead_of_nested : ∃ drafts, steps {} {} 0 nestedBlock = (drafts, none) ∧
    (draftAt {} drafts 1).inlineDepth = 1 ∧ (draftAt {} drafts 8).inlineDepth = 2 ∧
    (draftAt {} drafts 11).inlineDepth = 0 ∧ Matches nestedBlock 0 10 ∧
    ∀ k, k ≤ 10 → ∀ t ∈ nestedBlock[k]?,
      StaysOnLine {} (draftAt {} drafts k) t (draftAt {} drafts (k + 1)) := by
  have hdone : (steps {} {} 0 nestedBlock).2 = none := by decide +kernel
  have hdepths : ∀ k < 12, (draftAt {} (steps {} {} 0 nestedBlock).1 k).inlineDepth =
      [0, 1, 2, 2, 2, 2, 1, 1, 2, 2, 1, 0].getD k 0 := by decide +kernel
  have hsteps : steps {} {} 0 nestedBlock = ((steps {} {} 0 nestedBlock).1, none) := Prod.ext rfl hdone
  generalize (steps {} {} 0 nestedBlock).1 = drafts at hdepths hsteps
  obtain ⟨hone, j, hmatches, hactive, hended, -, honLine⟩ :=
    (inline_mode_of_lookahead {} nestedBlock drafts hsteps 0).1 (hdepths 0 (by omega))
      (by rw [hdepths 1 (by omega)]; decide)
  have hj : j = 10 := by
    have hle : j ≤ 10 := by
      by_contra hj
      have hpos := hactive 10 (by omega) (by omega)
      rw [hdepths 11 (by omega)] at hpos
      exact absurd hpos (by decide)
    have honly : ∀ k < 11, [0, 1, 2, 2, 2, 2, 1, 1, 2, 2, 1, 0].getD (k + 1) 0 = 0 → k = 10 := by decide
    rw [hdepths (j + 1) (by omega)] at hended
    exact honly j (by omega) hended
  subst hj
  exact ⟨drafts, hsteps, hone, hdepths 8 (by omega), hended, hmatches, fun k hk => honLine rfl k (by omega) hk⟩

/-- Looking ahead skips blanks, even one whose text is that of a statement separator. -/
theorem inline_mode_over_blank_separator : ¬∀ (o : Options) (ts : List Token) (drafts : List Draft),
    steps o {} 0 ts = (drafts, none) → ∀ i, (draftAt {} drafts i).inlineDepth = 0 →
      0 < (draftAt {} drafts (i + 1)).inlineDepth →
      ∃ j, Matches ts i j ∧ ∀ k, i < k → k < j → ∀ t ∈ ts[k]?, breaksLine t = false := by
  intro h
  obtain ⟨j, ⟨front, u, inner, t, rest, hts, hfront, hj, -, ht, -⟩, hplain⟩ :=
    h {} [⟨.opening, ['('], none, none⟩, ⟨.blank, [';'], none, none⟩, ⟨.closing, [')'], none, none⟩] _
      rfl 0 rfl (by decide)
  obtain rfl := List.length_eq_zero_iff.mp hfront
  have hinner : inner ≠ [] := by
    rintro rfl
    obtain ⟨-, htail⟩ := List.cons.inj hts
    obtain ⟨rfl, -⟩ := List.cons.inj htail
    simp at ht
  have hpos := List.length_pos_iff.mpr hinner
  have hblank := hplain 1 (by omega) (by omega) _ rfl
  exact absurd hblank (by decide)

end SqlLayout
