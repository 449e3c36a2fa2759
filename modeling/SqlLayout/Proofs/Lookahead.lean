import SqlLayout.Proofs.Alike

/-!
# Looking ahead in a formatted query

Whether a pair of brackets stays on one line is decided by looking ahead. The tokens of a query and
those of its formatted text lead to the same decision: blanks are skipped, and commas that were held
back have come behind comments only, which no inline block can hold.
-/

namespace SqlLayout

/-- A token with the kind of another one and its text as it goes to a page. -/
def Token.Copies (v t : Token) : Prop :=
  v.kind = t.kind ∧ v.text = t.written

lemma Text.eq_of_collapse_eq_singleton {t : Text} {c : Char} (h : collapse t = [c]) (hc : c ≠ ' ') :
    t = [c] := by
  have hsolid : ∀ d ∈ t, isBlank d = false := by
    intro d hd
    rw [Bool.eq_false_iff]
    intro hblank
    have hmem := space_mem_collapse hd hblank
    rw [h, List.mem_singleton] at hmem
    exact hc hmem.symm
  rwa [collapse_eq_self hsolid] at h

lemma Token.written_eq_singleton {t : Token} {c : Char} (hc : c ≠ ' ' ∧ Text.isBlank c = false) :
    t.written = [c] ↔ t.text = [c] := by
  rw [Token.written]
  split
  · refine ⟨fun h => Text.eq_of_collapse_eq_singleton h hc.1, fun h => ?_⟩
    rw [h]
    exact Text.collapse_eq_self (by simpa using hc.2)
  · rfl

lemma Token.Copies.text_eq_singleton {v t : Token} (h : v.Copies t) {c : Char}
    (hc : c ≠ ' ' ∧ Text.isBlank c = false) : v.text = [c] ↔ t.text = [c] := by
  rw [h.2, Token.written_eq_singleton hc]

namespace InlineBlock

variable {limit : Int} {p q : Option Token} {length : Nat} {depth : Int} {t v : Token}
  {ts : List Token}

/-- Whether a line can have a space behind a token. -/
def leavesSpace (t : Token) : Bool :=
  t.kind ≠ .opening && !t.isText "."

/-- Whether a line can have a space in front of a token. -/
def takesSpace (t : Token) : Bool :=
  t.kind ≠ .closing && !(t.isText "," || t.isText "." || t.isText ":" || t.isText ";")

lemma width_eq (p : Option Token) (t : Token) :
    width p t = (if p.any leavesSpace && takesSpace t then 1 else 0) + (Text.collapse t.text).length := by
  have hspaced : p.any (spaced · t) = (p.any leavesSpace && takesSpace t) := by
    cases p with
    | none => rfl
    | some p => simp [spaced, leavesSpace, takesSpace, Bool.and_assoc]
  rw [width, hspaced]

lemma judgeFrom_blank (hb : t.kind = .blank) :
    judgeFrom limit p length depth (t :: ts) = judgeFrom limit p length depth ts := by
  rw [judgeFrom, if_pos hb]

lemma judgeFrom_cons (hb : t.kind ≠ .blank) :
    judgeFrom limit p length depth (t :: ts) =
      if limit < (length + width p t : Nat) then .refused
      else if t.kind = .closing ∧ depthAfter depth t = 0 then .fits
      else if breaksLine t then .refused
      else judgeFrom limit (some t) (length + width p t) (depthAfter depth t) ts := by
  rw [judgeFrom, if_neg hb]

lemma judgeFrom_comma (hk : t.kind = .operator) (ht : t.text = [',']) :
    judgeFrom limit p length depth (t :: ts) =
      if limit < (length + 1 : Nat) then .refused else judgeFrom limit (some t) (length + 1) depth ts := by
  have hwidth : width p t = 1 := by
    have htakes : takesSpace t = false := by simp [takesSpace, Token.isText, ht]
    rw [width_eq, htakes, ht, Bool.and_false]
    decide
  have hbreaks : breaksLine t = false := by simp [breaksLine, hk, Token.isText, ht]
  rw [judgeFrom_cons (by simp [hk])]
  simp only [hwidth, depthAfter, hk, hbreaks, Bool.false_eq_true, if_false, reduceCtorEq, false_and]

lemma judgeFrom_comment (hc : t.kind.isComment = true) :
    judgeFrom limit p length depth (t :: ts) ≠ .fits := by
  have hk : t.kind ≠ .blank ∧ t.kind ≠ .closing ∧ breaksLine t = true := by
    cases h : t.kind <;> simp_all [Kind.isComment, breaksLine]
  rw [judgeFrom_cons hk.1]
  simp only [hk.2.1, hk.2.2, false_and, if_false, if_true]
  split <;> simp

section

variable (h : v.Copies t)
include h

lemma isText_eq_of_copies {c : Char} (hc : c ≠ ' ' ∧ Text.isBlank c = false) {text : String}
    (htext : text.toList = [c]) : v.isText text = t.isText text := by
  rw [Token.isText, Token.isText, htext, Bool.eq_iff_iff, beq_iff_eq, beq_iff_eq, h.text_eq_singleton hc]

lemma leavesSpace_of_copies : leavesSpace v = leavesSpace t := by
  rw [leavesSpace, leavesSpace, h.1, isText_eq_of_copies h (c := '.') (by decide) rfl]

lemma width_of_copies (hpq : q.any leavesSpace = p.any leavesSpace) : width q v = width p t := by
  have htakes : takesSpace v = takesSpace t := by
    rw [takesSpace, takesSpace, h.1, isText_eq_of_copies h (c := ',') (by decide) rfl,
      isText_eq_of_copies h (c := '.') (by decide) rfl, isText_eq_of_copies h (c := ':') (by decide) rfl,
      isText_eq_of_copies h (c := ';') (by decide) rfl]
  rw [width_eq, width_eq, hpq, htakes, h.2, t.collapse_written]

lemma breaksLine_of_copies : breaksLine v = breaksLine t := by
  rw [breaksLine, breaksLine, h.1, isText_eq_of_copies h (c := ';') (by decide) rfl]

lemma fits_iff_of_copies {us : List Token} (hb : t.kind ≠ .blank)
    (hpq : q.any leavesSpace = p.any leavesSpace)
    (hrest : ∀ length depth, judgeFrom limit (some t) length depth ts = .fits ↔
      judgeFrom limit (some v) length depth us = .fits) :
    judgeFrom limit p length depth (t :: ts) = .fits ↔
      judgeFrom limit q length depth (v :: us) = .fits := by
  have hdepth : depthAfter depth v = depthAfter depth t := by rw [depthAfter, depthAfter, h.1]
  rw [judgeFrom_cons hb, judgeFrom_cons (by rwa [h.1]), width_of_copies h hpq, breaksLine_of_copies h,
    hdepth, h.1]
  split
  · rfl
  · split
    · rfl
    · split
      · rfl
      · exact hrest _ _

end

end InlineBlock

lemma Spells.cons_inv {q : Piece} {ps : List Piece} {us : List Token}
    (h : Spells (q :: ps) ((q :: ps).map Piece.kind) us) :
    ∃ v us', v.text = q.text ∧ v.kind = q.kind ∧ Spells ps (ps.map Piece.kind) us' ∧
      (q.gap = [] ∧ us = v :: us' ∨ q.gap ≠ [] ∧ ∃ b, b.kind = .blank ∧ us = b :: v :: us') := by
  rw [List.map_cons] at h
  generalize hk : q.kind = k at h
  cases h with
  | @tight _ _ _ v us' hgap htext _ _ hrest => exact ⟨v, us', htext, rfl, hrest, .inl ⟨hgap, rfl⟩⟩
  | @spaced _ _ _ b v us' hgap hb htext _ _ hrest =>
    exact ⟨v, us', htext, rfl, hrest, .inr ⟨hgap, b, hb, rfl⟩⟩

lemma Spells.judgeFrom_cons_inv {q : Piece} {ps : List Piece} {us : List Token}
    (h : Spells (q :: ps) ((q :: ps).map Piece.kind) us) :
    ∃ v us', v.text = q.text ∧ v.kind = q.kind ∧ Spells ps (ps.map Piece.kind) us' ∧
      ∀ limit p length depth, InlineBlock.judgeFrom limit p length depth us =
        InlineBlock.judgeFrom limit p length depth (v :: us') := by
  obtain ⟨v, us', htext, hkind, hus, hsplit⟩ := h.cons_inv
  refine ⟨v, us', htext, hkind, hus, fun limit p length depth => ?_⟩
  rcases hsplit with ⟨-, rfl⟩ | ⟨-, b, hb, rfl⟩
  · rfl
  · exact InlineBlock.judgeFrom_blank hb

open InlineBlock in
/-- Looking ahead ends at a closing bracket near enough in the tokens of a query if it does so in
the tokens that its pieces are spelled with; the query is ahead by the commas held back. -/
lemma Typeset.fits_iff {ctx : Context} {n m : Nat} {ts : List Token} {ps : List Piece}
    (h : Typeset ctx n ts ps m) {us : List Token} (hus : Spells ps (ps.map Piece.kind) us) {limit : Int}
    {p q : Option Token} {length : Nat} {depth : Int}
    (hzero : n = 0 → q.any leavesSpace = p.any leavesSpace) (hpos : n ≠ 0 → p.any leavesSpace = true) :
    ((n ≠ 0 → ((length + n : Nat) : Int) ≤ limit) ∧ judgeFrom limit p (length + n) depth ts = .fits) ↔
      judgeFrom limit q length depth us = .fits := by
  induction h generalizing us p q length depth with
  | done ctx n =>
    cases hus
    simp [judgeFrom]
  | blank _ hk _ ih =>
    rw [judgeFrom_blank hk]
    exact ih hus hzero hpos
  | @hold ctx n m t ts ps _ hk htext _ ih =>
    have hleaves : leavesSpace t = true := by simp [leavesSpace, hk, Token.isText, htext]
    rw [← ih hus (p := some t) (by simp) (by simp [hleaves]), judgeFrom_comma hk htext]
    by_cases hl : limit < (length + n + 1 : Nat)
    · rw [if_pos hl]
      refine iff_of_false (by simp) fun h => ?_
      have := h.1 (by omega)
      omega
    · rw [if_neg hl]
      exact ⟨fun h => ⟨fun _ => by omega, h.2⟩, fun h => ⟨fun _ => by omega, h.2⟩⟩
  | @release ctx n m ts ps gap _ _ ih =>
    obtain ⟨v, us', htext, hkind, hus', hskip⟩ := hus.judgeFrom_cons_inv
    have hleaves : leavesSpace v = true := by simp [leavesSpace, hkind, Token.isText, htext]
    have hp := hpos (by omega)
    rw [hskip, judgeFrom_comma hkind htext]
    by_cases hl : limit < (length + 1 : Nat)
    · rw [if_pos hl]
      refine iff_of_false (fun h => ?_) (by simp)
      have := h.1 (by omega)
      omega
    · rw [if_neg hl, ← ih hus' (p := p) (q := some v) (by simp [hleaves, hp]) fun _ => hp,
        Nat.add_right_comm length 1 n]
      exact ⟨fun h => ⟨fun _ => by have := h.1 (by omega); omega, h.2⟩, fun h => ⟨fun _ => by
        by_cases hn : n = 0
        · omega
        · have := h.1 hn
          omega, h.2⟩⟩
  | comment gap text _ hc _ _ _ ih =>
    obtain ⟨v, us', htext, hkind, hus', hskip⟩ := hus.judgeFrom_cons_inv
    rw [hskip]
    exact iff_of_false (fun h => judgeFrom_comment hc h.2)
      (judgeFrom_comment (by simp [hkind, Kind.isComment]))
  | @set ctx m t ts ps gap _ hb hc _ _ ih =>
    obtain ⟨v, us', htext, hkind, hus', hskip⟩ := hus.judgeFrom_cons_inv
    have hcopy : v.Copies t := ⟨hkind, htext⟩
    have hrest : ∀ length depth, judgeFrom limit (some t) length depth ts = .fits ↔
        judgeFrom limit (some v) length depth us' = .fits := by
      intro length depth
      rw [← ih hus' (p := some t) (by simp [leavesSpace_of_copies hcopy]) (by simp)]
      simp
    rw [hskip, ← fits_iff_of_copies hcopy hb (hzero rfl) hrest]
    simp

end SqlLayout
