import SqlLayout.Proofs.InlineMode

/-!
# Bookkeeping of a run

A draft counts what is open: a clause, brackets on lines of their own, brackets of an inline block,
wrapped lines. `Draft.levels_of_step` says once what a token does to these counts, and
`Draft.held_of_step` what it does to the commas that wait for the next line. The counts of a whole run
then follow from the tokens alone: every bracket is counted on one of the two sides, and nothing is
left open by a token that closes it.
-/

namespace SqlLayout

open InlineBlock

/-- The brackets that are open behind a token; one that closes nothing counts for nothing. -/
def nestingAfter (depth : Nat) (t : Token) : Nat :=
  match t.kind with
  | .opening => depth + 1
  | .closing => depth - 1
  | _ => depth

def nesting (ts : List Token) : Nat :=
  ts.foldl nestingAfter 0

lemma nesting_concat (ts : List Token) (t : Token) : nesting (ts ++ [t]) = nestingAfter (nesting ts) t :=
  List.foldl_concat nestingAfter 0 t ts

/-- Whether a token ends the indentation of wrapped lines. -/
def Token.endsOverflow (t : Token) : Bool :=
  match t.kind with
  | .lineComment | .keyword .clause | .keyword .breaking | .keyword .indented | .opening => true
  | _ => t.isComma

/-- The last token that is neither blank nor a comment. -/
def lastInked? (ts : List Token) : Option Token :=
  (ts.filter fun t => t.kind ≠ .blank && !t.kind.isComment).getLast?

lemma lastInked?_concat (ts : List Token) (t : Token) :
    lastInked? (ts ++ [t]) =
      if t.kind = .blank ∨ t.kind.isComment = true then lastInked? ts else some t := by
  rw [lastInked?, List.filter_append]
  split
  · next h =>
    have hskip : (decide (t.kind ≠ .blank) && !t.kind.isComment) = false := by
      rcases h with h | h <;> simp [h]
    rw [List.filter_singleton, hskip]
    simp [lastInked?]
  · next h =>
    obtain ⟨hb, hc⟩ := not_or.mp h
    simp [hb, hc]

/-- The levels behind a token, wrapped lines aside, where inline mode has the given depths in front of
it and behind it. -/
def Levels.behind (ls : Levels) (d : Dialect) (depth depth' : Nat) (t : Token) : Levels :=
  match t.kind with
  | .keyword .clause => { ls with clause := ls.clause - 1 + 1, continuation := ls.continuation - 1 }
  | .keyword .breaking =>
    if Draft.isJoin d t.text then { ls with continuation := ls.continuation - 1 } else ls
  | .keyword .indented => { ls with continuation := ls.continuation + 1 }
  | .opening => if 0 < depth' then ls else { ls with block := ls.block + 1 }
  | .closing => if 0 < depth then ls else { ls with block := ls.block - 1 }
  | _ => ls

namespace Levels

variable (ls : Levels) (d : Dialect) (depth depth' : Nat) (t : Token)

lemma clause_behind : (ls.behind d depth depth' t).clause =
    if t.kind = .keyword .clause then ls.clause - 1 + 1 else ls.clause := by
  unfold behind
  split <;> simp_all <;> split <;> rfl

lemma block_behind : (ls.behind d depth depth' t).block =
    if t.kind = .opening then if 0 < depth' then ls.block else ls.block + 1
    else if t.kind = .closing then if 0 < depth then ls.block else ls.block - 1
    else ls.block := by
  unfold behind
  split <;> simp_all <;> split <;> rfl

end Levels

namespace Draft

section

variable {o : Options} {s s' : Draft} {index : Nat} {t : Token} {rest : List Token}

/-- The levels of a draft are the given ones, wrapped lines aside: there are no more of these than
before unless a line can be too long, and none behind a token that ends them. -/
def Relevels (o : Options) (s : Draft) (ls : Levels) (ends : Bool) (s' : Draft) : Prop :=
  ∃ n, s'.levels = { ls with overflow := n } ∧ (o.maxLineLength = 0 → n ≤ s.levels.overflow) ∧
    (ends = true → n = 0)

lemma Relevels.ended {ls : Levels} {ends : Bool} (h : s'.levels = { ls with overflow := 0 }) :
    Relevels o s ls ends s' :=
  ⟨0, h, fun _ => Nat.zero_le _, fun _ => rfl⟩

lemma Relevels.kept {ls : Levels} (h : s'.levels = { ls with overflow := s.levels.overflow }) :
    Relevels o s ls false s' :=
  ⟨s.levels.overflow, h, fun _ => le_rfl, by simp⟩

lemma relevels_writeWrapped (text : Text) : Relevels o s s.levels false (s.writeWrapped o text) := by
  unfold writeWrapped wrapBefore
  split
  · next h => exact ⟨s.levels.overflow + 1, rfl, fun hz => absurd hz h.1, by simp⟩
  · exact .kept rfl

lemma relevels_keyword (role : Role) (hk : t.kind = .keyword role) (depth depth' : Nat) (text : Text) :
    Relevels o s (s.levels.behind o.dialect depth depth' t) t.endsOverflow
      (s.keyword o role t.text text) := by
  cases role with
  | clause | indented =>
    simp only [Levels.behind, hk]
    exact .ended rfl
  | breaking =>
    simp only [Levels.behind, hk]
    apply Relevels.ended
    change (if isJoin o.dialect t.text then s.dropOverflow.outdent .continuation
      else s.dropOverflow).levels = _
    split <;> rfl
  | plain =>
    simp only [Levels.behind, Token.endsOverflow, Token.isComma, hk]
    exact relevels_writeWrapped _

lemma relevels_opening (hk : t.kind = .opening) (depth : Nat) (ts : List Token) (text : Text) :
    Relevels o s (s.levels.behind o.dialect depth (s.opening o index ts text).inlineDepth t) t.endsOverflow
      (s.opening o index ts text) := by
  have hbefore : s.beforeBracket.dropOverflow.levels = { s.levels with overflow := 0 } := by
    unfold beforeBracket
    split <;> rfl
  apply Relevels.ended
  simp only [Levels.behind, hk, inlineDepth_opening, enter]
  rw [opening_eq]
  by_cases hz : 0 < s.inlineDepth
  · rw [if_pos hz, if_pos (by split <;> omega)]
    exact hbefore
  · rw [if_neg hz, if_neg hz]
    cases hj : judge o.inlineLimit ts with
    | fits => exact hbefore
    | refused | unclosed =>
      exact congrArg (Levels.increase · .block) hbefore

lemma relevels_closing (hk : t.kind = .closing) (depth' : Nat) (text : Text) :
    Relevels o s (s.levels.behind o.dialect s.inlineDepth depth' t) t.endsOverflow (s.closing o text) := by
  simp only [Levels.behind, Token.endsOverflow, Token.isComma, hk]
  apply Relevels.kept
  rw [closing]
  split <;> rfl

lemma relevels_operator (hk : t.kind = .operator) (depth depth' : Nat) (text : Text) :
    Relevels o s (s.levels.behind o.dialect depth depth' t) t.endsOverflow (s.operator o t.text text) := by
  simp only [Levels.behind, Token.endsOverflow, Token.isComma, hk]
  rw [operator]
  split
  · apply Relevels.ended
    rw [comma]
    split
    · rfl
    · split <;> rfl
  · next hcomma =>
    rw [beq_false_of_ne hcomma]
    split
    · exact .kept rfl
    split
    · exact .kept rfl
    split
    · exact .kept rfl
    · exact relevels_writeWrapped text

lemma levels_of_step (h : s.step o index t rest = .ok s') :
    Relevels o s (s.levels.behind o.dialect s.inlineDepth s'.inlineDepth t) t.endsOverflow s' := by
  obtain ⟨c, used, -, rfl⟩ := exists_placed_of_step h
  change Relevels o s (s.levels.behind o.dialect s.inlineDepth (s.placed o index t rest c used).inlineDepth t)
    t.endsOverflow (s.placed o index t rest c used)
  cases hk : t.kind with
  | blank | unclassified | placeholder | blockComment =>
    simp only [placed, Levels.behind, Token.endsOverflow, Token.isComma, hk]
    exact .kept rfl
  | lineComment =>
    simp only [placed, Levels.behind, hk]
    exact .ended rfl
  | keyword role =>
    simp only [placed, hk]
    exact relevels_keyword (s := { s with held := [] }) role hk _ _ _
  | opening =>
    simp only [placed, hk]
    exact relevels_opening (s := { s with held := [] }) hk _ _ _
  | closing =>
    simp only [placed, hk]
    exact relevels_closing (s := { s with held := [] }) hk _ _
  | operator =>
    simp only [placed, hk]
    exact relevels_operator (s := { s with held := [] }) hk _ _ _
  | word | quoted | number =>
    simp only [placed, Levels.behind, Token.endsOverflow, Token.isComma, hk]
    exact relevels_writeWrapped (s := { s with held := [] }) _

lemma open_of_step (h : s.step o index t rest = .ok s') :
    s'.levels.block + s'.inlineDepth = nestingAfter (s.levels.block + s.inlineDepth) t := by
  obtain ⟨n, hlevels, -⟩ := levels_of_step h
  have hblock := congrArg Levels.block hlevels
  have hdepth := inlineDepth_of_step h
  rw [Levels.block_behind] at hblock
  rw [hblock, nestingAfter]
  cases hk : t.kind with
  | opening =>
    simp only [hk, if_true, enter] at hdepth ⊢
    split at hdepth
    · rw [if_pos (by omega)]
      omega
    split at hdepth
    · rw [if_pos (by omega)]
      omega
    · rw [if_neg (by omega)]
      omega
  | closing =>
    simp only [hk, reduceCtorEq, if_false, if_true, leave] at hdepth ⊢
    split <;> omega
  | _ =>
    simp only [hk, reduceCtorEq, if_false] at hdepth ⊢
    rw [hdepth]

lemma inlineDepth_of_step_of_plain (h : s.step o index t rest = .ok s') (ho : t.kind ≠ .opening)
    (hc : t.kind ≠ .closing) : s'.inlineDepth = s.inlineDepth := by
  rw [inlineDepth_of_step h, if_neg ho, if_neg hc]

lemma held_of_step (h : s.step o index t rest = .ok s') :
    (t.kind = .blank ∨ t.kind.isComment = true) ∧ s'.held = s.held ∨ s'.held = [] ∨
      o.commaStyle = .leading ∧ s.inlineDepth = 0 ∧ t.isComma = true ∧ s'.held = s.held ++ [','] := by
  have hknown : ∀ name, t.kind ≠ .unclassified name := by
    intro name hk
    simp [Draft.step, place, hk] at h
  obtain ⟨c, used, -, rfl⟩ := exists_placed_of_step h
  have hheld : (s.placed o index t rest c used).held = s.heldAfter o t := held_placed o s index t rest c used
  change _ ∧ (s.placed o index t rest c used).held = _ ∨ (s.placed o index t rest c used).held = _ ∨
    _ ∧ _ ∧ _ ∧ (s.placed o index t rest c used).held = _
  rw [hheld]
  unfold heldAfter
  cases hk : t.kind with
  | blank | lineComment | blockComment => exact .inl ⟨by decide, rfl⟩
  | unclassified name => exact absurd hk (hknown name)
  | operator =>
    dsimp only
    split
    · next h =>
      obtain ⟨hcomma, hstyle, hdepth, -⟩ := h
      exact .inr (.inr ⟨hstyle, hdepth, by simp [Token.isComma, hk, hcomma], rfl⟩)
    · exact .inr (.inl rfl)
  | _ => exact .inr (.inl rfl)

end

/-- What the counts of a draft say about the tokens behind which it stands. -/
structure Accounts (o : Options) (ts : List Token) (s : Draft) : Prop where
  /-- At most one clause is open, and one is from the first clause keyword on. -/
  clause : s.levels.clause = if ts.any (·.kind = .keyword .clause) then 1 else 0
  /-- Each open bracket is counted once, in an inline block or outside of one. -/
  block : s.levels.block + s.inlineDepth = nesting ts
  /-- No line is wrapped unless it can be too long, and none behind a token that ends wrapped lines. -/
  overflow : o.maxLineLength = 0 ∨ ts.getLast?.any Token.endsOverflow = true → s.levels.overflow = 0
  /-- Only commas are held back, in the leading style, outside of inline blocks and directly behind a
  comma but for blanks and comments. -/
  held : s.held ≠ [] → o.commaStyle = .leading ∧ s.inlineDepth = 0 ∧
    (lastInked? ts).any Token.isComma = true ∧ ∀ c ∈ s.held, c = ','

namespace Accounts

variable {o : Options} {part ts : List Token} {s s' : Draft} {index : Nat} {t : Token}

lemma start (o : Options) : Accounts o [] {} where
  clause := rfl
  block := rfl
  overflow _ := rfl
  held h := absurd rfl h

lemma step (h : Accounts o part s) (hstep : s.step o index t ts = .ok s') :
    Accounts o (part ++ [t]) s' := by
  obtain ⟨n, hlevels, hkept, hended⟩ := levels_of_step hstep
  refine ⟨?_, ?_, fun hends => ?_, fun hne => ?_⟩
  · have hclause := congrArg Levels.clause hlevels
    rw [Levels.clause_behind, h.clause] at hclause
    rw [hclause, List.any_append]
    by_cases hk : t.kind = .keyword .clause
    · simp only [hk, if_true, List.any_cons, decide_true, Bool.true_or, Bool.or_true]
      split <;> rfl
    · simp [hk]
  · rw [nesting_concat, ← h.block, open_of_step hstep]
  · have hzero : n = 0 := by
      rcases hends with hwrap | hlast
      · have hn := hkept hwrap
        have hover := h.overflow (.inl hwrap)
        omega
      · exact hended (by simpa using hlast)
    rw [hlevels, hzero]
  · rw [lastInked?_concat]
    rcases held_of_step hstep with ⟨hskip, hheld⟩ | hnone | ⟨hstyle, hz, hcomma, hheld⟩
    · rw [hheld] at hne ⊢
      obtain ⟨hstyle, hz, hlast, hcommas⟩ := h.held hne
      have hdepth := inlineDepth_of_step_of_plain hstep (fun hk => by simp [hk, Kind.isComment] at hskip)
        (fun hk => by simp [hk, Kind.isComment] at hskip)
      rw [if_pos hskip]
      exact ⟨hstyle, hdepth.trans hz, hlast, hcommas⟩
    · exact absurd hnone hne
    · have hk : t.kind = .operator := by
        simp only [Token.isComma, Bool.and_eq_true, decide_eq_true_eq] at hcomma
        exact hcomma.1
      have hdepth := inlineDepth_of_step_of_plain hstep (by simp [hk]) (by simp [hk])
      rw [hheld, if_neg (by simp [hk, Kind.isComment])]
      refine ⟨hstyle, hdepth.trans hz, hcomma, fun c hc => ?_⟩
      rcases List.mem_append.mp hc with hc | hc
      · exact (h.held (List.ne_nil_of_mem hc)).2.2.2 c hc
      · exact List.mem_singleton.mp hc

lemma steps (h : Accounts o part s) {k : Nat} (hk : k ≤ (s.steps o index ts).1.length) :
    Accounts o (part ++ ts.take k) (draftAt s (s.steps o index ts).1 k) := by
  induction k generalizing part s index ts with
  | zero => simpa [draftAt] using h
  | succ k ih =>
    cases ts with
    | nil => simp [Draft.steps] at hk
    | cons t ts =>
      cases hstep : s.step o index t ts with
      | error e => simp [Draft.steps, hstep] at hk
      | ok s' =>
        rw [steps_cons_ok hstep] at hk ⊢
        rw [List.take_succ_cons, draftAt_succ, List.append_cons]
        exact ih (h.step hstep) (Nat.le_of_succ_le_succ hk)

/-- What holds in front of some tokens holds behind all of them if nothing stops the run. -/
lemma run (h : Accounts o part s) (hrun : (s.run o index ts).2 = none) :
    Accounts o (part ++ ts) (s.run o index ts).1 := by
  induction ts generalizing part s index with
  | nil => simpa [Draft.run] using h
  | cons t ts ih =>
    cases hstep : s.step o index t ts with
    | error e => simp [Draft.run, hstep] at hrun
    | ok s' =>
      rw [Draft.run, hstep] at hrun ⊢
      rw [List.append_cons]
      exact ih (h.step hstep) hrun

end Accounts

end Draft

open Draft

/-- Behind each token that a run gets through, the counts of the draft follow from the tokens so far: a
clause is open if there was a clause keyword; the brackets on lines of their own and those of the inline
block are together the brackets that are open; no wrapped line is left behind a token that ends it, nor
where lines are not wrapped; and only commas are held back, and only behind a comma. -/
theorem draft_accounts_for_tokens (o : Options) (ts : List Token) (k : Nat)
    (hk : k ≤ (Draft.steps o {} 0 ts).1.length) :
    Accounts o (ts.take k) (draftAt {} (Draft.steps o {} 0 ts).1 k) :=
  (Accounts.start o).steps hk

theorem draft_accounts_for_tokens_of_open_list :
    ∃ ts : List Token, 4 ≤ (Draft.steps {} {} 0 ts).1.length ∧ nesting (ts.take 4) = 1 ∧
      (draftAt {} (Draft.steps {} {} 0 ts).1 4).held ≠ [] ∧
      Accounts {} (ts.take 4) (draftAt {} (Draft.steps {} {} 0 ts).1 4) :=
  ⟨[⟨.keyword .clause, "SELECT".toList, none, none⟩, ⟨.opening, ['('], none, none⟩, ⟨.word, ['a'], none, none⟩,
    ⟨.operator, [','], none, none⟩, ⟨.unclassified "MARK", [], none, none⟩],
    by decide, rfl, by decide, draft_accounts_for_tokens {} _ 4 (by decide)⟩

end SqlLayout
