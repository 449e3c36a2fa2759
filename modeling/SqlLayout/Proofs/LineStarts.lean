import SqlLayout.Proofs.Bookkeeping
import SqlLayout.Proofs.Lockstep

/-!
# Where lines start

The indentation levels show only where a line starts. Up to the first token that starts one, a run
writes the same whatever the levels are; and if that token is a keyword that ends all levels, it stands
at the margin, and the levels are forgotten.
-/

namespace SqlLayout

open InlineBlock

/-- Whether a token starts a line in front of it or behind it, where inline mode has the given depth in
front of it. -/
def startsLine (limit : Int) (depth : Nat) (t : Token) (rest : List Token) : Bool :=
  match t.kind with
  | .lineComment | .blockComment | .keyword .clause | .keyword .breaking | .keyword .indented => true
  | .opening => enter limit depth (t :: rest) = 0
  | .closing => depth = 0
  | .operator => t.text = [','] && depth = 0
  | _ => false

def inlineAfter (limit : Int) (depth : Nat) (t : Token) (rest : List Token) : Nat :=
  match t.kind with
  | .opening => enter limit depth (t :: rest)
  | .closing => leave depth
  | _ => depth

/-- The first token that starts a line. -/
def firstBreak (limit : Int) (depth : Nat) : List Token → Option Token
  | [] => none
  | t :: ts =>
    if startsLine limit depth t ts then some t else firstBreak limit (inlineAfter limit depth t ts) ts

/-- Whether a token is a keyword that starts its line at the margin, whatever is left of the levels. -/
def Levels.endAt (ls : Levels) (d : Dialect) (t : Token) : Bool :=
  match t.kind with
  | .keyword .clause => ls.clause ≤ 1 && ls.continuation ≤ 1
  | .keyword .breaking => Draft.isJoin d t.text && ls.clause = 0 && ls.continuation ≤ 1
  | _ => false

namespace Draft

/-- A draft moved to other levels, in a clause that limits rows or not. -/
def moved (s : Draft) (ls : Levels) (limit : Bool) : Draft :=
  { s with levels := ls, inLimit := limit }

section

variable {o : Options} {s : Draft} {ls : Levels} {l : Bool}

lemma writeWrapped_moved (hwrap : o.maxLineLength = 0) (t : Text) :
    (s.moved ls l).writeWrapped o t = (s.writeWrapped o t).moved ls l := by
  simp only [writeWrapped, wrapBefore, hwrap, ne_eq, not_true_eq_false, false_and, if_false]
  rfl

lemma beforeBracket_moved : (s.moved ls l).beforeBracket = s.beforeBracket.moved ls l := by
  have hprevious : (s.moved ls l).previous = s.previous := rfl
  rw [beforeBracket, beforeBracket, hprevious]
  split <;> rfl

lemma dropOverflow_moved (h : ls.overflow = 0) : (s.moved ls l).dropOverflow = s.dropOverflow.moved ls l :=
  (dropOverflow_of_overflow (s := s.moved ls l) h).trans rfl

lemma opening_moved (hover : ls.overflow = 0) {ts : List Token}
    (h : enter o.inlineLimit s.inlineDepth ts ≠ 0) (index : Nat) (t : Text) :
    (s.moved ls l).opening o index ts t = (s.opening o index ts t).moved ls l := by
  have hbefore : (s.moved ls l).beforeBracket.dropOverflow = s.beforeBracket.dropOverflow.moved ls l := by
    rw [beforeBracket_moved, dropOverflow_moved hover]
  have hdepth : (s.moved ls l).inlineDepth = s.inlineDepth := rfl
  rw [opening_eq, opening_eq, hbefore, hdepth]
  split
  · rfl
  · next hz =>
    rw [enter, if_neg hz] at h
    cases hj : judge o.inlineLimit ts with
    | fits => rfl
    | refused | unclosed => simp [hj] at h

lemma closing_moved (h : s.inlineDepth ≠ 0) (t : Text) :
    (s.moved ls l).closing o t = (s.closing o t).moved ls l := by
  have hpos : 0 < s.inlineDepth := Nat.pos_of_ne_zero h
  have hpos' : 0 < (s.moved ls l).inlineDepth := hpos
  rw [closing, if_pos hpos', closing, if_pos hpos]
  rfl

lemma operator_moved (hwrap : o.maxLineLength = 0) (hover : ls.overflow = 0) {own : Text}
    (h : own = [','] → s.inlineDepth ≠ 0) (t : Text) :
    (s.moved ls l).operator o own t = (s.operator o own t).moved ls l := by
  rw [operator, operator]
  split
  · next hcomma =>
    have hpos : 0 < s.dropOverflow.inlineDepth := Nat.pos_of_ne_zero (h hcomma)
    have hpos' : 0 < (s.moved ls l).dropOverflow.inlineDepth := hpos
    rw [comma, if_pos (.inl hpos'), comma, if_pos (.inl hpos), dropOverflow_moved hover]
    rfl
  split
  · rfl
  split
  · rfl
  split
  · rfl
  · exact writeWrapped_moved hwrap t

lemma after_moved (hwrap : o.maxLineLength = 0) (hover : ls.overflow = 0) {t : Token} {rest : List Token}
    (h : startsLine o.inlineLimit s.inlineDepth t rest = false) (index : Nat) :
    ∃ l', (s.moved ls l).after o index t rest = (s.after o index t rest).moved ls l' := by
  have hfree : ({ s.moved ls l with held := [] } : Draft) = { s with held := [] }.moved ls l := rfl
  have hheld : (s.moved ls l).held = s.held := rfl
  unfold after placed
  dsimp only
  rw [hfree, hheld]
  unfold startsLine at h
  cases hk : t.kind with
  | blank | unclassified | placeholder => exact ⟨l, rfl⟩
  | lineComment | blockComment => simp [hk] at h
  | keyword role =>
    cases role with
    | clause | breaking | indented => simp [hk] at h
    | plain =>
      refine ⟨isLimit t.text, ?_⟩
      dsimp only [keyword]
      rw [writeWrapped_moved hwrap]
      rfl
  | opening =>
    refine ⟨l, ?_⟩
    dsimp only
    rw [opening_moved hover (by simpa [hk] using h)]
    rfl
  | closing =>
    refine ⟨l, ?_⟩
    dsimp only
    rw [closing_moved (by simpa [hk] using h)]
    rfl
  | operator =>
    refine ⟨l, ?_⟩
    dsimp only
    rw [operator_moved hwrap hover (by simpa [hk] using h)]
    rfl
  | word | quoted | number =>
    refine ⟨l, ?_⟩
    dsimp only
    rw [writeWrapped_moved hwrap]
    rfl

lemma clauseKeyword_moved
    (h : (ls.dropOverflow.decrease .continuation).decrease .clause =
      (s.levels.dropOverflow.decrease .continuation).decrease .clause) (t : Text) :
    (s.moved ls l).clauseKeyword o t = { s.clauseKeyword o t with inLimit := l } := by
  have houtdent : ((s.moved ls l).dropOverflow.outdent .continuation).outdent .clause =
      { (s.dropOverflow.outdent .continuation).outdent .clause with inLimit := l } :=
    congrArg (s.moved · l) h
  rw [clauseKeyword, houtdent]
  rfl

lemma breakingKeyword_moved {own : Text} (hjoin : isJoin o.dialect own = true)
    (h : ls.dropOverflow.decrease .continuation = s.levels.dropOverflow.decrease .continuation) (t : Text) :
    (s.moved ls l).breakingKeyword o own t = { s.breakingKeyword o own t with inLimit := l } := by
  have houtdent : (s.moved ls l).dropOverflow.outdent .continuation =
      { s.dropOverflow.outdent .continuation with inLimit := l } := congrArg (s.moved · l) h
  rw [breakingKeyword, breakingKeyword]
  simp only [hjoin, if_true]
  rw [houtdent]
  rfl

lemma after_moved_of_endAt (hs : s.levels = {}) (hblock : ls.block = 0) (hover : ls.overflow = 0)
    {t : Token} (h : ls.endAt o.dialect t = true) (index : Nat) (rest : List Token) :
    (s.moved ls l).after o index t rest = s.after o index t rest := by
  have hfree : ({ s.moved ls l with held := [] } : Draft) = { s with held := [] }.moved ls l := rfl
  have hheld : (s.moved ls l).held = s.held := rfl
  obtain ⟨clause, block, continuation, overflow⟩ := ls
  obtain rfl : block = 0 := hblock
  obtain rfl : overflow = 0 := hover
  unfold after placed
  dsimp only
  rw [hfree, hheld]
  rw [Levels.endAt.eq_def] at h
  split at h
  · next hk =>
    simp only [Bool.and_eq_true, decide_eq_true_eq] at h
    have hends : (Levels.decrease (Levels.dropOverflow ⟨clause, 0, continuation, 0⟩) .continuation).decrease
        .clause = (s.levels.dropOverflow.decrease .continuation).decrease .clause := by
      simp [hs, Levels.dropOverflow, Levels.decrease, Levels.update, Nat.sub_eq_zero_of_le h.1,
        Nat.sub_eq_zero_of_le h.2]
    simp only [hk, keyword]
    rw [clauseKeyword_moved (s := { s with held := [] }) hends]
  · next hk =>
    simp only [Bool.and_eq_true, decide_eq_true_eq] at h
    obtain ⟨⟨hjoin, hclause⟩, hcontinuation⟩ := h
    have hends : Levels.decrease (Levels.dropOverflow ⟨clause, 0, continuation, 0⟩) .continuation =
        s.levels.dropOverflow.decrease .continuation := by
      simp [hs, Levels.dropOverflow, Levels.decrease, Levels.update, hclause,
        Nat.sub_eq_zero_of_le hcontinuation]
    simp only [hk, keyword]
    rw [breakingKeyword_moved (s := { s with held := [] }) hjoin hends]
  · simp at h

end

section

variable {o : Options} {s : Draft} {t : Token} {ts : List Token}

lemma inlineDepth_after (hbind : o.bindings = .none) (ht : t.Proper) (index : Nat) :
    (s.after o index t ts).inlineDepth = inlineAfter o.inlineLimit s.inlineDepth t ts := by
  rw [inlineDepth_of_step (step_eq_after hbind ht index ts), inlineAfter]
  cases t.kind <;> rfl

lemma levels_after (hwrap : o.maxLineLength = 0) (hbind : o.bindings = .none) (ht : t.Proper)
    (hover : s.levels.overflow = 0) (h : startsLine o.inlineLimit s.inlineDepth t ts = false)
    (index : Nat) : (s.after o index t ts).levels = s.levels := by
  obtain ⟨n, hlevels, hn, -⟩ := levels_of_step (step_eq_after (s := s) hbind ht index ts)
  have hzero : n = 0 := by
    have := hn hwrap
    omega
  rw [hlevels, hzero, inlineDepth_after hbind ht]
  have hbehind : s.levels.behind o.dialect s.inlineDepth (inlineAfter o.inlineLimit s.inlineDepth t ts) t =
      s.levels := by
    unfold startsLine at h
    unfold Levels.behind inlineAfter
    cases hk : t.kind with
    | keyword role => cases role <;> simp_all
    | opening => simp_all [Nat.pos_iff_ne_zero]
    | closing => simp_all [Nat.pos_iff_ne_zero]
    | _ => rfl
  rw [hbehind, ← hover]

end

/-- A run writes the same page at levels that end at its first line. -/
lemma page_run_moved {o : Options} (hwrap : o.maxLineLength = 0) (hbind : o.bindings = .none) {s : Draft}
    (hs : s.levels = {}) {ls : Levels} (hblock : ls.block = 0) (hover : ls.overflow = 0) {ts : List Token}
    (hts : ∀ t ∈ ts, t.Proper)
    (hbreak : ∀ t ∈ firstBreak o.inlineLimit s.inlineDepth ts, ls.endAt o.dialect t = true)
    (l : Bool) (index : Nat) :
    ((s.moved ls l).run o index ts).1.page = (s.run o index ts).1.page := by
  induction ts generalizing s l index with
  | nil => rfl
  | cons t ts ih =>
    obtain ⟨ht, hts⟩ := List.forall_mem_cons.mp hts
    rw [run_cons hbind ht, run_cons hbind ht]
    rw [firstBreak] at hbreak
    split at hbreak
    · rw [after_moved_of_endAt hs hblock hover (hbreak t rfl)]
    · next hstarts =>
      rw [Bool.not_eq_true] at hstarts
      obtain ⟨l', hafter⟩ := after_moved (l := l) hwrap hover hstarts index
      have hlevels := levels_after hwrap hbind ht (by rw [hs]) hstarts index
      rw [hafter]
      exact ih (hlevels.trans hs) hts (by rwa [inlineDepth_after hbind ht]) l' (index + 1)

end Draft

end SqlLayout
