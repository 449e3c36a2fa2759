import SqlLayout.Proofs.Growth
import SqlLayout.Proofs.Statements

/-!
# Where clause keywords stand

A clause keyword begins a line. It ends the clause before and one continuation, so it is set as many
units in as brackets are open around it, and one more for each further continuation. Where joins or
clauses stand between the keywords that begin continuations, there is no further one.
-/

namespace SqlLayout

open InlineBlock Lexeme

namespace Draft

/-! ### Continuations -/

def continuations (d : Dialect) (ts : List Token) : Nat :=
  ts.foldl (continuationAfter d) 0

lemma continuations_concat (d : Dialect) (ts : List Token) (t : Token) :
    continuations d (ts ++ [t]) = continuationAfter d (continuations d ts) t :=
  List.foldl_concat (continuationAfter d) 0 t ts

/-- Whether a keyword ends a continuation. -/
def endsContinuation (d : Dialect) (t : Token) : Bool :=
  match t.kind with
  | .keyword .clause => true
  | .keyword .breaking => isJoin d t.text
  | _ => false

lemma continuationAfter_eq (d : Dialect) (n : Nat) (t : Token) : continuationAfter d n t =
    if endsContinuation d t then n - 1 else if t.kind = .keyword .indented then n + 1 else n := by
  unfold continuationAfter endsContinuation
  cases hk : t.kind with
  | keyword role => cases role <;> simp
  | _ => simp

/-- Between any two keywords that begin a continuation, there is one that ends one. -/
def Alternates (d : Dialect) (ts : List Token) : Prop :=
  ∀ front u inner v rest, ts = front ++ u :: (inner ++ v :: rest) → u.kind = .keyword .indented →
    v.kind = .keyword .indented → ∃ t ∈ inner, endsContinuation d t = true

lemma Alternates.continuations_le {d : Dialect} {ts : List Token} (h : Alternates d ts) :
    continuations d ts ≤ 1 ∧ (continuations d ts = 1 → ∃ front u inner, ts = front ++ u :: inner ∧
      u.kind = .keyword .indented ∧ ∀ t ∈ inner, endsContinuation d t = false) := by
  induction ts using List.reverseRecOn with
  | nil => exact ⟨Nat.zero_le 1, fun hone => absurd hone Nat.zero_ne_one⟩
  | append_singleton ts t ih =>
    have hts : Alternates d ts := by
      intro front u inner v rest hsplit
      apply h front u inner v (rest ++ [t])
      rw [hsplit]
      simp
    obtain ⟨hle, hlast⟩ := ih hts
    rw [continuations_concat, continuationAfter_eq]
    by_cases hends : endsContinuation d t = true
    · rw [if_pos hends]
      omega
    rw [if_neg hends]
    by_cases hk : t.kind = .keyword .indented
    · rw [if_pos hk]
      have hzero : continuations d ts ≠ 1 := by
        intro hone
        obtain ⟨front, u, inner, rfl, hu, hinner⟩ := hlast hone
        obtain ⟨v, hv, hv'⟩ := h front u inner t [] (by simp) hu hk
        rw [hinner v hv] at hv'
        simp at hv'
      exact ⟨by omega, fun _ => ⟨ts, t, [], rfl, hk, by simp⟩⟩
    · rw [if_neg hk]
      refine ⟨hle, fun hone => ?_⟩
      obtain ⟨front, u, inner, rfl, hu, hinner⟩ := hlast hone
      refine ⟨front, u, inner ++ [t], by simp, hu, fun v hv => ?_⟩
      rcases List.mem_append.mp hv with hv | hv
      · exact hinner v hv
      · rw [List.mem_singleton.mp hv]
        exact Bool.eq_false_iff.mpr hends

/-! ### Runs up to a clause keyword -/

section

variable {o : Options} {s : Draft} {index : Nat} {ts : List Token}

lemma continuation_of_steps {k : Nat} (hk : k ≤ (s.steps o index ts).1.length) :
    (draftAt s (s.steps o index ts).1 k).levels.continuation =
      (ts.take k).foldl (continuationAfter o.dialect) s.levels.continuation := by
  induction k with
  | zero => rfl
  | succ k ih =>
    obtain ⟨t, ht, hstep⟩ := step_of_steps hk
    rw [continuation_of_step hstep, ih (Nat.le_of_succ_le hk), List.take_add_one, ht, Option.toList_some,
      List.foldl_concat]

lemma closing_of_steps (h : s.Closing ts) {k : Nat} (hk : k ≤ (s.steps o index ts).1.length) :
    (draftAt s (s.steps o index ts).1 k).Closing (ts.drop k) := by
  induction k with
  | zero => exact h
  | succ k ih =>
    obtain ⟨t, ht, hstep⟩ := step_of_steps hk
    obtain ⟨hlt, rfl⟩ := List.getElem?_eq_some_iff.mp ht
    have hclosing := ih (Nat.le_of_succ_le hk)
    rw [List.drop_eq_getElem_cons hlt] at hclosing
    exact hclosing.step hstep

lemma Closing.inlineDepth_eq_zero {t : Token} (h : s.Closing (t :: ts)) (hb : t.kind ≠ .blank)
    (hc : t.kind ≠ .closing) (hbreaks : breaksLine t = true) : s.inlineDepth = 0 := by
  by_contra hne
  obtain ⟨us, v, rest, hsplit, hencloses⟩ := h (Nat.pos_of_ne_zero hne)
  cases us with
  | nil =>
    obtain ⟨rfl, -⟩ := List.cons.inj hsplit
    exact hc hencloses.last_kind
  | cons u us =>
    obtain ⟨rfl, -⟩ := List.cons.inj hsplit
    rcases hencloses.plain t List.mem_cons_self with hblank | hplain
    · exact hb hblank
    · simp [hplain] at hbreaks

end

/-! ### The line of a clause keyword -/

lemma page_clauseKeyword {o : Options} {s : Draft} {t : Text} (ht : (Text.collapse t).Solid) {n : Nat}
    (hn : s.levels.clause - 1 + s.levels.block + (s.levels.continuation - 1) = n) :
    (s.clauseKeyword o t).page.text =
      s.page.text.trimEnd ++ (if s.separated then ['\n', '\n'] else ['\n']) ++
        (List.replicate n o.unit).flatten ++ Text.collapse t ++ ['\n'] ++
        (List.replicate (n + 1) o.unit).flatten := by
  let u := ((s.dropOverflow.outdent .continuation).outdent .clause).newLine o.unit
  let v := (u.indent .clause).write (Text.collapse t)
  have hu : u.page.text = s.page.text.trimEnd ++ ((if s.separated then ['\n', '\n'] else ['\n']) ++
      (List.replicate n o.unit).flatten) := by
    have htotal : ((s.dropOverflow.outdent .continuation).outdent .clause).levels.total = n := by
      rw [← hn]
      rfl
    rw [text_newLine, Levels.indentation, htotal]
    rfl
  have hv : v.page.text = u.page.text ++ Text.collapse t := Page.text_append _ _
  have hbody : v.body = v.page.text := by
    rw [body, hv]
    exact Text.trimEnd_append_solid ht
  have htotal : v.levels.total = n + 1 := by
    have hlevels : v.levels.total = s.levels.clause - 1 + 1 + s.levels.block + (s.levels.continuation - 1) + 0 := rfl
    omega
  have hseparated : v.separated = false := rfl
  change (v.newLine o.unit).page.text = _
  rw [text_newLine, hbody, hv, hu, Levels.indentation, htotal, hseparated, if_neg Bool.false_ne_true]
  simp only [List.append_assoc]

/-- What a clause keyword does to the page, behind any tokens that a run can have got through. -/
lemma page_of_clause_step {o : Options} {s s' : Draft} {index : Nat} {t : Token} {part rest : List Token}
    (haccounts : Accounts o part s) (hk : t.kind = .keyword .clause) (ht : t.text.Solid)
    (hstep : s.step o index t rest = .ok s') {n : Nat}
    (hn : s.levels.block + (s.levels.continuation - 1) = n) :
    s'.page.text = s.page.text.trimEnd ++ (if s.separated then ['\n', '\n'] else ['\n']) ++
      (List.replicate n o.unit).flatten ++ (s.held ++ Text.collapse t.text) ++ ['\n'] ++
      (List.replicate (n + 1) o.unit).flatten := by
  have hcommas : ∀ c ∈ s.held, c = ',' := by
    intro c hc
    exact (haccounts.held (List.ne_nil_of_mem hc)).2.2.2 c hc
  have hcollapse : Text.collapse (s.held ++ t.text) = s.held ++ Text.collapse t.text := by
    apply Text.collapse_append_of_solid
    intro c hc
    rw [hcommas c hc]
    decide
  have hclause : s.levels.clause - 1 = 0 := by
    rw [haccounts.clause]
    split <;> rfl
  have hsolid : (Text.collapse (s.held ++ t.text)).Solid := by
    rw [hcollapse]
    exact ht.collapse.commas_append hcommas
  obtain ⟨c, used, -, rfl⟩ := exists_placed_of_step hstep
  change (s.placed o index t rest c used).page.text = _
  simp only [placed, hk]
  rw [← hcollapse]
  apply page_clauseKeyword (s := { s with held := [] }) hsolid
  dsimp only
  omega

end Draft

open Draft

/-- Every clause keyword begins a line, behind commas that were held back at most. The line is indented
once for each bracket around the keyword, none of which belongs to an inline block, and once more for
each continuation that is open but the first. So it is indented for the brackets alone if keywords that
begin continuations alternate with those that end them. The line stays on the page to the end of the
run. -/
theorem clause_keyword_begins_line (o : Options) (query : Text) (ts : List Token)
    (h : tokenize .standard query = .ok ts) (drafts : List Draft) (failure : Option LayoutError)
    (hsteps : steps o {} 0 ts = (drafts, failure)) (k : Nat) (hk : k < drafts.length) (t : Token)
    (ht : ts[k]? = some t) (hclause : t.kind = .keyword .clause) :
    (draftAt {} drafts k).inlineDepth = 0 ∧ (draftAt {} drafts k).levels.block = nesting (ts.take k) ∧
    (∀ c ∈ (draftAt {} drafts k).held, c = ',') ∧
    ∃ d above line, d = nesting (ts.take k) + (continuations o.dialect (ts.take k) - 1) ∧
      (above = (draftAt {} drafts k).page.text.trimEnd ++ ['\n'] ∨
        above = (draftAt {} drafts k).page.text.trimEnd ++ ['\n', '\n']) ∧
      line = (List.replicate d o.unit).flatten ++ ((draftAt {} drafts k).held ++ Text.collapse t.text) ∧
      (draftAt {} drafts (k + 1)).page.text =
        above ++ line ++ ['\n'] ++ (List.replicate (d + 1) o.unit).flatten ∧
      above ++ line <+: (run o {} 0 ts).1.page.text ∧
      (Alternates o.dialect (ts.take k) → d = nesting (ts.take k)) := by
  obtain rfl : (steps o {} 0 ts).1 = drafts := congrArg Prod.fst hsteps
  have hreads := (tokensFrom_eq_ok_iff Dialect.standard_substantial).mp h
  have hsolid : t.text.Solid := by
    obtain ⟨_, _, l, hlexed, hkind⟩ := hreads.exists_lexed t (List.mem_of_getElem? ht)
    exact hlexed.solid (by simp [hkind, hclause]) (by simp [hkind, hclause, Kind.isComment])
  obtain ⟨v, hv, hstep⟩ := step_of_steps hk
  obtain rfl : t = v := Option.some.inj (ht.symm.trans hv)
  have haccounts := (Accounts.start o).steps hk.le
  have hcontinuation := continuation_of_steps hk.le
  have hzero : (draftAt {} (steps o {} 0 ts).1 k).inlineDepth = 0 := by
    obtain ⟨hlt, rfl⟩ := List.getElem?_eq_some_iff.mp ht
    have hclosing := closing_of_steps (s := {}) (fun hpos => absurd hpos (by decide)) hk.le
    rw [List.drop_eq_getElem_cons hlt] at hclosing
    exact hclosing.inlineDepth_eq_zero (by simp [hclause]) (by simp [hclause]) (by simp [breaksLine, hclause])
  rw [List.nil_append] at haccounts
  have hgrows := grows_to_end (s := {}) hk
  generalize draftAt {} (steps o {} 0 ts).1 k = s at *
  generalize draftAt {} (steps o {} 0 ts).1 (k + 1) = s' at *
  have hblock : s.levels.block = nesting (ts.take k) := by
    rw [← haccounts.block, hzero, Nat.add_zero]
  have hcommas : ∀ c ∈ s.held, c = ',' := by
    intro c hc
    exact (haccounts.held (List.ne_nil_of_mem hc)).2.2.2 c hc
  have hpage := page_of_clause_step haccounts hclause hsolid hstep rfl
  rw [hblock, hcontinuation] at hpage
  refine ⟨hzero, hblock, hcommas, _, s.page.text.trimEnd ++ if s.separated then ['\n', '\n'] else ['\n'], _,
    rfl, ?_, rfl, ?_, ?_, fun halternates => ?_⟩
  · cases s.separated with
    | true => exact .inr rfl
    | false => exact .inl rfl
  · rw [← List.append_assoc _ _ (s.held ++ _)]
    exact hpage
  · apply hgrows
    · rw [← List.append_assoc]
      exact Text.trimEnd_append_solid (hsolid.collapse.commas_append hcommas)
    · rw [hpage, ← List.append_assoc _ _ (s.held ++ _), List.append_assoc _ ['\n']]
      exact List.prefix_append _ _
  · have hle := halternates.continuations_le.1
    omega

theorem clause_keyword_begins_line_in_bracket :
    ∃ ts above, tokenize .standard "(GO".toList = .ok ts ∧ nesting (ts.take 1) = 1 ∧
      above ++ "  GO".toList <+: (run {} {} 0 ts).1.page.text := by
  have hreads : Reads Dialect.standard.lexicon .start .start (['('] ++ (['G', 'O'] ++ [])) _ :=
    .cons rfl rfl (by simp) (.cons (lexeme_go rfl) rfl (by simp) (.nil _ _))
  have htokens := tokensFrom_of_reads hreads
  obtain ⟨-, -, -, d, above, line, rfl, -, rfl, -, hline, -⟩ :=
    clause_keyword_begins_line {} _ _ htokens _ _ rfl 1 (by decide) _ rfl rfl
  exact ⟨_, above, htokens, rfl, hline⟩

lemma keyword?_on {ctx : Context} (hdot : ctx.afterDot = false) {t : Text}
    (hsize : phraseSize? [['O', 'N']] t = some 2)
    (hnone : ∀ q ∈ Dialect.standard.clauses, phraseSize? q.words t = none) :
    keyword? Dialect.standard.lexicon ctx t = some { kind := .keyword .indented, size := 2 } := by
  have hphrases : Dialect.standard.lexicon.phrases = Dialect.standard.orderedPhrases .clause ++
      ((Role.indented, [['O', 'N']]) :: [Role.breaking, .plain].flatMap Dialect.standard.orderedPhrases) := rfl
  rw [keyword?, if_neg (by simp [hdot]), hphrases, List.findSome?_append, List.findSome?_eq_none_iff.mpr]
  · simp [hsize]
  · rintro ⟨role, ws⟩ hws
    obtain ⟨q, hq, heq⟩ := List.mem_map.mp hws
    obtain ⟨rfl, rfl⟩ := Prod.mk.inj heq
    rw [Option.map_eq_none_iff]
    exact hnone q (mem_byLength.mp hq)

lemma lexeme_on {ctx : Context} (hdot : ctx.afterDot = false) {r : Text}
    (hsize : phraseSize? [['O', 'N']] (['O', 'N'] ++ r) = some 2)
    (hnone : ∀ q ∈ Dialect.standard.clauses, phraseSize? q.words (['O', 'N'] ++ r) = none)
    (hnumber : numberSize? (['O', 'N'] ++ r) = none) :
    lexeme Dialect.standard.lexicon ctx (['O', 'N'] ++ r) =
      .ok { kind := .keyword .indented, size := 2 } := by
  have hplain : plain Dialect.standard.lexicon ctx (['O', 'N'] ++ r) = _ :=
    plain_of_startsWord (by decide) hnumber
  have hstart : startsPlain (['O', 'N'] ++ r) = true := startsPlain_of_word (by decide) (by decide) r
  rw [keyword?_on hdot hsize hnone] at hplain
  rw [lexeme_of_startsPlain hstart, hplain]
  rfl

/-- A clause keyword ends one continuation and stays indented for the other. -/
theorem clause_keyword_indented_twice : ¬∀ (o : Options) (query : Text) (ts : List Token),
    tokenize .standard query = .ok ts → ∀ (drafts : List Draft) (failure : Option LayoutError),
    steps o {} 0 ts = (drafts, failure) → ∀ k < drafts.length, ∀ t ∈ ts[k]?, t.kind = .keyword .clause →
    ∃ above commas, (∀ c ∈ commas, c = ',') ∧ (draftAt {} drafts (k + 1)).page.text.trimEnd =
      above ++ ['\n'] ++ (List.replicate (draftAt {} drafts k).levels.block o.unit).flatten ++ commas ++
        Text.collapse t.text := by
  intro h
  have hreads : Reads Dialect.standard.lexicon .start .start
      (['O', 'N'] ++ ([' '] ++ (['O', 'N'] ++ ([' '] ++ (['G', 'O'] ++ []))))) _ :=
    .cons (lexeme_on rfl (by decide) (by decide +kernel) (by decide)) rfl (by simp) (.cons rfl rfl (by simp)
      (.cons (lexeme_on rfl (by decide) (by decide +kernel) (by decide)) rfl (by simp) (.cons rfl rfl (by simp)
        (.cons (lexeme_go rfl) rfl (by simp) (.nil _ _)))))
  obtain ⟨above, commas, hcommas, hpage⟩ :=
    h {} _ _ (tokensFrom_of_reads hreads) _ _ rfl 4 (by decide) _ rfl rfl
  have htext : "\n  ON\n    ON\n  GO".toList = above ++ ['\n'] ++ [] ++ commas ++ ['G', 'O'] := hpage
  have hbefore := congrArg (fun text : Text => text.reverse[2]?) htext
  rcases commas.eq_nil_or_concat with rfl | ⟨cs, c, rfl⟩
  · simp at hbefore
  · rw [hcommas c (by simp)] at hbefore
    simp at hbefore

end SqlLayout
