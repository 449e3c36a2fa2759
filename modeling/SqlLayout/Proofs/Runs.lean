import Mathlib.Tactic.Lemma
import SqlLayout.Format

/-!
# Runs of the layout

A run goes through the tokens one by one and can be stopped only by a token that a query cannot hold
or by a placeholder without a text. This file has what every result about runs needs: when a step
succeeds, and that `steps` and `run` are two views of the same run.
-/

namespace SqlLayout

/-- Whether a token is one that a query can hold: its kind is known, and a block comment has its
start and its end. -/
def Token.isSound (t : Token) : Bool :=
  match t.kind with
  | .unclassified _ => false
  | .blockComment => Comment.isClosed t.text
  | _ => true

/-- What a token contributes to the page, blanks aside, and how many values the unnumbered
placeholders have used behind it. A line comment becomes a block comment, and a placeholder
becomes what is bound to it. -/
def Token.chunk (o : Options) (used : Nat) (t : Token) : Except BindingFault (Text × Nat) :=
  match t.kind with
  | .blank => .ok ([], used)
  | .lineComment => .ok (Comment.ofLine o.dialect.commentMarks t.text, used)
  | .placeholder => o.bindings.resolve used t
  | _ => .ok (t.text, used)

def chunks (o : Options) (used : Nat) : List Token → Except BindingFault (List Text)
  | [] => .ok []
  | t :: ts =>
    match t.chunk o used with
    | .error e => .error e
    | .ok (c, used') =>
      match chunks o used' ts with
      | .error e => .error e
      | .ok cs => .ok (c :: cs)

lemma chunks_cons {o : Options} {used : Nat} {t : Token} {ts : List Token} {ds : List Text}
    (h : chunks o used (t :: ts) = .ok ds) :
    ∃ c used' cs, t.chunk o used = .ok (c, used') ∧ chunks o used' ts = .ok cs ∧ ds = c :: cs := by
  rw [chunks] at h
  split at h
  · simp at h
  · next c used' hc =>
    split at h
    · simp at h
    · next cs hcs => exact ⟨c, used', cs, hc, hcs, (Except.ok.inj h).symm⟩

namespace Draft

/-- What the small steps of a draft leave alone. -/
def frame (s : Draft) : Text × Nat × Option Kind × Bool :=
  (s.held, s.used, s.previous, s.inLimit)

/-- Whether a comma is held back for the next line: in the leading style, outside of inline blocks and of
a clause that limits rows. -/
def HoldsCommas (o : Options) (s : Draft) : Prop :=
  o.commaStyle = .leading ∧ s.inlineDepth = 0 ∧ s.inLimit = false

instance (o : Options) (s : Draft) : Decidable (s.HoldsCommas o) :=
  inferInstanceAs (Decidable (_ ∧ _))

section

variable (o : Options) (s : Draft) (t own : Text)

lemma frame_wrapBefore : (s.wrapBefore o t).frame = s.frame := by
  rw [wrapBefore]
  split <;> rfl

lemma frame_writeWrapped : (s.writeWrapped o t).frame = s.frame :=
  frame_wrapBefore o s t

lemma frame_breakingKeyword : (s.breakingKeyword o own t).frame = s.frame := by
  change (if isJoin o.dialect own then s.dropOverflow.outdent .continuation
    else s.dropOverflow).frame = s.frame
  split <;> rfl

lemma frame_keyword (role : Role) : (s.keyword o role own t).frame = s.frame := by
  cases role with
  | clause => rfl
  | indented => rfl
  | breaking => exact frame_breakingKeyword o s t own
  | plain => exact frame_writeWrapped o s _

lemma frame_opening (index : Nat) (ts : List Token) :
    (s.opening o index ts t).frame = s.frame := by
  rw [opening]
  split <;> split <;> try rfl
  all_goals split <;> rfl

lemma frame_closing : (s.closing o t).frame = s.frame := by
  rw [closing]
  split <;> rfl

lemma comma_of_holdsCommas (h : s.HoldsCommas o) :
    s.comma o t = { s.dropOverflow.trimEnd with held := t }.newLine o.unit := by
  obtain ⟨hstyle, hdepth, hlimit⟩ := h
  have hfree : ¬(0 < s.dropOverflow.inlineDepth ∨ s.dropOverflow.inLimit = true) := by
    change ¬(0 < s.inlineDepth ∨ s.inLimit = true)
    simp [hdepth, hlimit]
  simp only [comma, if_neg hfree, hstyle]

lemma comma_of_not_holdsCommas (h : ¬s.HoldsCommas o) :
    s.comma o t = s.dropOverflow.writeAttached t ∨
      s.comma o t = (s.dropOverflow.writeTight t).newLine o.unit := by
  rw [comma]
  split
  · exact .inl rfl
  · next hfree =>
    split
    · exact .inr rfl
    · next hstyle =>
      have hfree' : ¬(0 < s.inlineDepth ∨ s.inLimit = true) := hfree
      rw [not_or, Nat.not_lt, Nat.le_zero, Bool.not_eq_true] at hfree'
      exact absurd ⟨hstyle, hfree'⟩ h

lemma frame_comma : (s.comma o t).frame =
    (if s.HoldsCommas o then t else s.held, s.used, s.previous, s.inLimit) := by
  split
  · next h =>
    rw [comma_of_holdsCommas o s t h]
    rfl
  · next h => rcases comma_of_not_holdsCommas o s t h with hc | hc <;> rw [hc] <;> rfl

lemma frame_operator (h : own ≠ [',']) : (s.operator o own t).frame = s.frame := by
  rw [operator, if_neg h]
  split
  · rfl
  · split
    · rfl
    · split
      · rfl
      · exact frame_writeWrapped o s t

end

/-- The draft that a token of a query leaves behind, given its text on the page and the number of
values used by then. -/
def placed (o : Options) (s : Draft) (index : Nat) (t : Token) (rest : List Token) (value : Text)
    (used : Nat) : Draft :=
  let free := { s with held := [] }
  let text := s.held ++ t.text
  match t.kind with
  | .blank | .unclassified _ => s
  | .lineComment => s.lineComment o t.text
  | .blockComment => s.blockComment o t.text
  | .keyword role => { free.keyword o role t.text text with inLimit := isLimit t.text }
  | .opening => free.opening o index (t :: rest) text
  | .closing => free.closing o text
  | .placeholder => { free with used }.writeSpaced (s.held ++ value)
  | .operator => free.operator o t.text text
  | .word | .quoted | .number => free.writeWrapped o text

/-- The commas held back behind a token: blanks and comments leave them alone, a comma joins them where
it is held back, and anything else takes them with it to the page. -/
def heldAfter (o : Options) (s : Draft) (t : Token) : Text :=
  match t.kind with
  | .blank | .lineComment | .blockComment | .unclassified _ => s.held
  | .operator => if t.text = [','] ∧ s.HoldsCommas o then s.held ++ [','] else []
  | _ => []

/-- Whether commas behind a token do not break the line. -/
def limitAfter (limit : Bool) (t : Token) : Bool :=
  match t.kind with
  | .keyword _ => isLimit t.text
  | _ => limit

section

variable (o : Options) (s : Draft) (index : Nat) (t : Token) (rest : List Token) (c : Text) (used : Nat)

/-- What a token does to all of a draft but its page, its levels and the depth of inline mode. -/
lemma frame_placed : (s.placed o index t rest c used).frame =
    (s.heldAfter o t, if t.kind = .placeholder then used else s.used, s.previous,
      limitAfter s.inLimit t) := by
  unfold placed heldAfter limitAfter
  cases hk : t.kind with
  | blank | unclassified | lineComment | blockComment | placeholder => rfl
  | keyword role =>
    have hframe := frame_keyword o { s with held := [] } (s.held ++ t.text) t.text role
    exact congrArg (fun f => (f.1, f.2.1, f.2.2.1, isLimit t.text)) hframe
  | opening => exact frame_opening o { s with held := [] } _ _ _
  | closing => exact frame_closing o { s with held := [] } _
  | word | quoted | number => exact frame_writeWrapped o { s with held := [] } _
  | operator =>
    dsimp only
    by_cases hcomma : t.text = [',']
    · have hsame : { s with held := [] }.HoldsCommas o ↔ s.HoldsCommas o := Iff.rfl
      rw [operator, if_pos hcomma, frame_comma, hcomma]
      simp [hsame]
    · rw [frame_operator o _ _ _ hcomma, if_neg fun h => hcomma h.1]
      rfl

lemma held_placed : (s.placed o index t rest c used).held = s.heldAfter o t :=
  congrArg Prod.fst (frame_placed o s index t rest c used)

end

lemma used_placed {o : Options} {s : Draft} {t : Token} {c : Text} {used : Nat}
    (h : t.chunk o s.used = .ok (c, used)) (index : Nat) (rest : List Token) :
    (s.placed o index t rest c used).used = used := by
  have hused : (s.placed o index t rest c used).used = if t.kind = .placeholder then used else s.used :=
    congrArg (·.2.1) (frame_placed o s index t rest c used)
  rw [hused]
  unfold Token.chunk at h
  split
  · rfl
  · next hk =>
    cases hkind : t.kind <;> simp_all

lemma step_eq_ok {o : Options} {s : Draft} {t : Token} {c : Text} {used : Nat}
    (ht : t.isSound = true) (hc : t.chunk o s.used = .ok (c, used)) (index : Nat)
    (rest : List Token) :
    s.step o index t rest =
      .ok { s.placed o index t rest c used with previous := some t.kind } := by
  rw [step, place, placed]
  cases hk : t.kind <;> simp_all [Token.isSound, Token.chunk]

lemma step_eq_error {o : Options} {s : Draft} {t : Token} {fault : BindingFault}
    (hc : t.chunk o s.used = .error fault) (index : Nat) (rest : List Token) :
    s.step o index t rest = .error (.unresolved fault) := by
  rw [Token.chunk] at hc
  rw [step, place]
  cases hk : t.kind <;> simp_all

lemma exists_placed_of_step {o : Options} {s s' : Draft} {index : Nat} {t : Token} {rest : List Token}
    (h : s.step o index t rest = .ok s') :
    ∃ c used, t.chunk o s.used = .ok (c, used) ∧
      s' = { s.placed o index t rest c used with previous := some t.kind } := by
  rw [step, place] at h
  cases hk : t.kind with
  | blockComment =>
    rw [hk] at h
    by_cases hclosed : Comment.isClosed t.text = true
    · rw [if_pos hclosed] at h
      exact ⟨t.text, s.used, by simp [Token.chunk, hk], by simpa [placed, hk] using (Except.ok.inj h).symm⟩
    · simp [hclosed] at h
  | placeholder =>
    rw [hk] at h
    cases hr : o.bindings.resolve s.used t with
    | error fault => simp [hr] at h
    | ok r =>
      simp only [hr] at h
      exact ⟨r.1, r.2, by simp [Token.chunk, hk, hr], by simpa [placed, hk] using (Except.ok.inj h).symm⟩
  | unclassified name => simp [hk] at h
  | _ =>
    simp only [hk] at h
    exact ⟨_, s.used, by rw [Token.chunk, hk], by simpa [placed, hk] using (Except.ok.inj h).symm⟩

lemma steps_cons_ok {o : Options} {s s' : Draft} {index : Nat} {t : Token} {ts : List Token}
    (h : s.step o index t ts = .ok s') :
    s.steps o index (t :: ts) =
      (s' :: (s'.steps o (index + 1) ts).1, (s'.steps o (index + 1) ts).2) := by
  rw [steps, h]

lemma run_eq_steps (o : Options) (s : Draft) (index : Nat) (ts : List Token) :
    s.run o index ts = ((s.steps o index ts).1.getLastD s, (s.steps o index ts).2) := by
  induction ts generalizing s index with
  | nil => rfl
  | cons t ts ih =>
    cases h : s.step o index t ts with
    | error e => simp [run, steps, h]
    | ok s' =>
      rw [steps_cons_ok h, run, h]
      simp only [ih, List.getLastD_cons]

end Draft

lemma layout_eq_ok {o : Options} {ts : List Token} {drafts : List Draft}
    (h : Draft.steps o {} 0 ts = (drafts, none)) :
    layout o ts = .ok (drafts.getLastD {}).text := by
  rw [layout, Draft.run_eq_steps, h]

end SqlLayout
