import Mathlib.Data.List.Forall2
import SqlLayout.Proofs.Lookahead

/-!
# Blanks in the source

The layout makes its own blanks. Those of the source matter in one place only, directly in front of an
opening bracket. Two token sequences that differ in blanks elsewhere are laid out in step: their
drafts agree in all but the remarks and the kind of the token before.
-/

namespace SqlLayout

open InlineBlock

/-- Two tokens that differ at most in where they stand. -/
structure Token.Same (t u : Token) : Prop where
  kind : t.kind = u.kind
  text : t.text = u.text
  key : t.key = u.key

def solid (ts : List Token) : List Token :=
  ts.filter fun t => t.kind ≠ .blank

/-- The tokens that are not blank, each with whether a blank stands directly in front of it. -/
def gapped (blank : Bool) : List Token → List (Token × Bool)
  | [] => []
  | t :: ts => if t.kind = .blank then gapped true ts else (t, blank) :: gapped false ts

/-- What is wrong when a layout fails, apart from the place. -/
def LayoutError.fault : LayoutError → TokenFault ⊕ BindingFault
  | badToken fault _ _ => .inl fault
  | unresolved fault => .inr fault

section

variable {t : Token} {ts : List Token}

lemma solid_cons_of_blank (h : t.kind = .blank) : solid (t :: ts) = solid ts := by
  simp [solid, h]

lemma solid_cons_of_solid (h : t.kind ≠ .blank) : solid (t :: ts) = t :: solid ts := by
  simp [solid, h]

lemma gapped_cons_of_blank (h : t.kind = .blank) (b : Bool) : gapped b (t :: ts) = gapped true ts :=
  if_pos h

lemma gapped_cons_of_solid (h : t.kind ≠ .blank) (b : Bool) :
    gapped b (t :: ts) = (t, b) :: gapped false ts :=
  if_neg h

end

/-! ### Looking ahead -/

section

variable {t u : Token} (h : t.Same u)
include h

lemma Token.Same.isText (text : String) : t.isText text = u.isText text := by
  rw [Token.isText, Token.isText, h.text]

lemma Token.Same.width {p q : Option Token} (hpq : Option.Rel Token.Same p q) : width p t = width q u := by
  have hspaced : p.any (spaced · t) = q.any (spaced · u) := by
    cases hpq with
    | none => rfl
    | some hpq =>
      unfold spaced
      simp only [Option.any_some, hpq.kind, h.kind, hpq.isText, h.isText]
  rw [InlineBlock.width, InlineBlock.width, hspaced, h.text]

lemma Token.Same.breaksLine : breaksLine t = breaksLine u := by
  rw [InlineBlock.breaksLine, InlineBlock.breaksLine, h.kind, h.isText]

lemma Token.Same.depthAfter (depth : Int) : depthAfter depth t = depthAfter depth u := by
  rw [InlineBlock.depthAfter, InlineBlock.depthAfter, h.kind]

end

lemma judgeFrom_solid (limit : Int) (p : Option Token) (length : Nat) (depth : Int) (ts : List Token) :
    judgeFrom limit p length depth (solid ts) = judgeFrom limit p length depth ts := by
  induction ts generalizing p length depth with
  | nil => rfl
  | cons t ts ih =>
    by_cases hb : t.kind = .blank
    · rw [solid_cons_of_blank hb, judgeFrom_blank hb, ih]
    · rw [solid_cons_of_solid hb, judgeFrom_cons hb, judgeFrom_cons hb, ih]

lemma judgeFrom_of_same {limit : Int} {p q : Option Token} {ts us : List Token}
    (h : List.Forall₂ Token.Same ts us) (hsolid : ∀ t ∈ ts, t.kind ≠ .blank)
    (hpq : Option.Rel Token.Same p q) (length : Nat) (depth : Int) :
    judgeFrom limit p length depth ts = judgeFrom limit q length depth us := by
  induction h generalizing p q length depth with
  | nil => rfl
  | @cons t u ts us htu _ ih =>
    have hb := hsolid t (by simp)
    have hrest := ih (fun v hv => hsolid v (List.mem_cons_of_mem _ hv)) (.some htu)
    rw [judgeFrom_cons hb, judgeFrom_cons (htu.kind ▸ hb), htu.width hpq, htu.breaksLine,
      htu.depthAfter, htu.kind, hrest]

lemma judge_of_same {limit : Int} {ts us : List Token}
    (h : List.Forall₂ Token.Same (solid ts) (solid us)) : judge limit ts = judge limit us := by
  rw [judge, judge, ← judgeFrom_solid, ← judgeFrom_solid _ _ _ _ us]
  apply judgeFrom_of_same h
  · intro t ht
    simpa using (List.mem_filter.mp ht).2
  · exact .none

/-! ### Drafts that agree -/

namespace Draft

/-- Two drafts that differ at most in their remarks and in the kind of the token before. -/
def Agrees (s u : Draft) : Prop :=
  ∃ previous notes, u = { s with previous := previous, notes := notes }

namespace Agrees

variable {o : Options} {s u : Draft}

lemma refl (s : Draft) : Agrees s s := ⟨s.previous, s.notes, rfl⟩

lemma text_eq (h : Agrees s u) : s.text = u.text := by
  obtain ⟨p, n, rfl⟩ := h
  rfl

lemma wrapBefore (h : Agrees s u) (t : Text) : Agrees (s.wrapBefore o t) (u.wrapBefore o t) := by
  obtain ⟨p, n, rfl⟩ := h
  unfold Draft.wrapBefore
  split
  · exact ⟨p, _, rfl⟩
  · exact ⟨p, n, rfl⟩

lemma write (h : Agrees s u) (t : Text) : Agrees (s.write t) (u.write t) := by
  obtain ⟨p, n, rfl⟩ := h
  exact ⟨p, n, rfl⟩

lemma writeWrapped (h : Agrees s u) (t : Text) : Agrees (s.writeWrapped o t) (u.writeWrapped o t) :=
  (h.wrapBefore t).write _

lemma keyword (h : Agrees s u) (role : Role) (own t : Text) :
    Agrees (s.keyword o role own t) (u.keyword o role own t) := by
  cases role with
  | clause | indented =>
    obtain ⟨p, n, rfl⟩ := h
    exact ⟨p, n, rfl⟩
  | breaking =>
    obtain ⟨p, n, rfl⟩ := h
    unfold Draft.keyword breakingKeyword
    dsimp only
    split <;> exact ⟨p, n, rfl⟩
  | plain => exact h.writeWrapped _

lemma closing (h : Agrees s u) (t : Text) : Agrees (s.closing o t) (u.closing o t) := by
  obtain ⟨p, n, rfl⟩ := h
  unfold Draft.closing
  dsimp only
  split <;> exact ⟨p, n, rfl⟩

lemma comma (h : Agrees s u) (t : Text) : Agrees (s.comma o t) (u.comma o t) := by
  obtain ⟨p, n, rfl⟩ := h
  by_cases hin : 0 < s.inlineDepth ∨ s.inLimit = true
  · have hs : 0 < s.dropOverflow.inlineDepth ∨ s.dropOverflow.inLimit = true := hin
    have hu : 0 < (dropOverflow { s with previous := p, notes := n }).inlineDepth ∨
        (dropOverflow { s with previous := p, notes := n }).inLimit = true := hin
    rw [Draft.comma, if_pos hs, Draft.comma, if_pos hu]
    exact ⟨p, n, rfl⟩
  · have hs : ¬(0 < s.dropOverflow.inlineDepth ∨ s.dropOverflow.inLimit = true) := hin
    have hu : ¬(0 < (dropOverflow { s with previous := p, notes := n }).inlineDepth ∨
        (dropOverflow { s with previous := p, notes := n }).inLimit = true) := hin
    rw [Draft.comma, if_neg hs, Draft.comma, if_neg hu]
    cases o.commaStyle <;> exact ⟨p, n, rfl⟩

lemma operator (h : Agrees s u) (own t : Text) : Agrees (s.operator o own t) (u.operator o own t) := by
  unfold Draft.operator
  split
  · exact h.comma t
  · split
    · obtain ⟨p, n, rfl⟩ := h
      exact ⟨p, n, rfl⟩
    · split
      · obtain ⟨p, n, rfl⟩ := h
        exact ⟨p, n, rfl⟩
      · split
        · obtain ⟨p, n, rfl⟩ := h
          exact ⟨p, n, rfl⟩
        · exact h.writeWrapped t

lemma beforeBracket (h : Agrees s u)
    (hopen : s.page.trimEnd = s.page ∨
      (s.previous = some .blank ∨ s.previous = some .opening ↔
        u.previous = some .blank ∨ u.previous = some .opening)) :
    Agrees s.beforeBracket u.beforeBracket := by
  have htrim : ∀ v : Draft, v.page.trimEnd = v.page → v.beforeBracket = v := by
    intro v hv
    unfold Draft.beforeBracket
    split
    · rfl
    · unfold Draft.trimEnd
      rw [hv]
  rcases hopen with hpage | hiff
  · have hpage' : u.page.trimEnd = u.page := by
      obtain ⟨p, n, rfl⟩ := h
      exact hpage
    rw [htrim s hpage, htrim u hpage']
    exact h
  · unfold Draft.beforeBracket
    by_cases hs : s.previous = some .blank ∨ s.previous = some .opening
    · rw [if_pos hs, if_pos (hiff.mp hs)]
      exact h
    · rw [if_neg hs, if_neg fun hu => hs (hiff.mpr hu)]
      obtain ⟨p, n, rfl⟩ := h
      exact ⟨p, n, rfl⟩

lemma opening (h : Agrees s u)
    (hopen : s.page.trimEnd = s.page ∨
      (s.previous = some .blank ∨ s.previous = some .opening ↔
        u.previous = some .blank ∨ u.previous = some .opening))
    {ts us : List Token} (hjudge : judge o.inlineLimit ts = judge o.inlineLimit us) (index j : Nat)
    (t : Text) : Agrees (s.opening o index ts t) (u.opening o j us t) := by
  have hdepth : s.inlineDepth = u.inlineDepth := by
    obtain ⟨p, n, rfl⟩ := h
    rfl
  obtain ⟨p, n, hbefore⟩ := h.beforeBracket hopen
  rw [opening_eq, opening_eq, hbefore, ← hdepth, ← hjudge]
  split
  · exact ⟨p, n, rfl⟩
  · split <;> exact ⟨p, _, rfl⟩

end Agrees

section

variable {o : Options} {s u : Draft} {t v : Token} {ts us : List Token}

lemma resolve_of_same (b : Bindings) (used : Nat) (h : t.Same v) : b.resolve used t = b.resolve used v := by
  unfold Bindings.resolve
  rw [h.key, h.text]

lemma place_agrees (h : Agrees s u) (ht : t.Same v) (hts : List.Forall₂ Token.Same (solid ts) (solid us))
    (hopen : t.kind = .opening → s.page.trimEnd = s.page ∨
      (s.previous = some .blank ∨ s.previous = some .opening ↔
        u.previous = some .blank ∨ u.previous = some .opening))
    (index j : Nat) :
    (∃ s' u', s.place o index t ts = .ok s' ∧ u.place o j v us = .ok u' ∧ Agrees s' u') ∨
    ∃ e f, s.place o index t ts = .error e ∧ u.place o j v us = .error f ∧ e.fault = f.fault := by
  obtain ⟨p, n, rfl⟩ := h
  have hfree : Agrees { s with held := [] } { s with held := [], previous := p, notes := n } := ⟨p, n, rfl⟩
  unfold place
  dsimp only
  rw [← ht.kind, ← ht.text]
  cases hk : t.kind with
  | blank => exact .inl ⟨_, _, rfl, rfl, p, n, rfl⟩
  | lineComment => exact .inl ⟨_, _, rfl, rfl, p, n, rfl⟩
  | blockComment =>
    by_cases hclosed : Comment.isClosed t.text = true
    · exact .inl ⟨_, _, if_pos hclosed, if_pos hclosed, p, n, rfl⟩
    · exact .inr ⟨_, _, if_neg hclosed, if_neg hclosed, rfl⟩
  | keyword role =>
    obtain ⟨p', n', hkeyword⟩ := hfree.keyword (o := o) role t.text (s.held ++ t.text)
    refine .inl ⟨_, _, rfl, rfl, p', n', ?_⟩
    rw [hkeyword]
  | opening =>
    refine .inl ⟨_, _, rfl, rfl, hfree.opening (hopen hk) ?_ index j _⟩
    apply judge_of_same
    rw [solid_cons_of_solid (by simp [hk]), solid_cons_of_solid (by simp [← ht.kind, hk])]
    exact .cons ht hts
  | closing => exact .inl ⟨_, _, rfl, rfl, hfree.closing _⟩
  | placeholder =>
    dsimp only
    rw [resolve_of_same _ _ ht]
    cases o.bindings.resolve s.used v with
    | ok r => exact .inl ⟨_, _, rfl, rfl, p, n, rfl⟩
    | error fault => exact .inr ⟨_, _, rfl, rfl, rfl⟩
  | operator => exact .inl ⟨_, _, rfl, rfl, hfree.operator _ _⟩
  | word | quoted | number => exact .inl ⟨_, _, rfl, rfl, hfree.writeWrapped _⟩
  | unclassified name => exact .inr ⟨_, _, rfl, rfl, rfl⟩

lemma step_agrees (h : Agrees s u) (ht : t.Same v) (hts : List.Forall₂ Token.Same (solid ts) (solid us))
    (hopen : t.kind = .opening → s.page.trimEnd = s.page ∨
      (s.previous = some .blank ∨ s.previous = some .opening ↔
        u.previous = some .blank ∨ u.previous = some .opening))
    (index j : Nat) :
    (∃ s' u', s.step o index t ts = .ok s' ∧ u.step o j v us = .ok u' ∧ Agrees s' u' ∧
      s'.previous = some t.kind ∧ u'.previous = some t.kind) ∨
    ∃ e f, s.step o index t ts = .error e ∧ u.step o j v us = .error f ∧ e.fault = f.fault := by
  unfold step
  rcases place_agrees h ht hts hopen index j with ⟨s', u', hs, hu, p, n, hagree⟩ | ⟨e, f, hs, hu, hfault⟩
  · rw [hs, hu]
    refine .inl ⟨_, _, rfl, rfl, ⟨some v.kind, n, ?_⟩, rfl, by rw [ht.kind]⟩
    rw [hagree]
  · rw [hs, hu]
    exact .inr ⟨e, f, rfl, rfl, hfault⟩

lemma step_blank (hb : t.kind = .blank) (index : Nat) :
    s.step o index t ts = .ok { s with previous := some .blank } := by
  simp [step, place, hb]

end

/-! ### Runs that agree -/

/-- A run stops with a fault at a token, which a number of other tokens that are not blank stand in
front of. -/
structure Halts (o : Options) (s : Draft) (index : Nat) (ts : List Token) (n : Nat) (t : Token)
    (fault : TokenFault ⊕ BindingFault) : Prop where
  token : ts[(s.steps o index ts).1.length]? = some t
  kind_ne_blank : t.kind ≠ .blank
  before : (solid (ts.take (s.steps o index ts).1.length)).length = n
  error : (s.steps o index ts).2.map LayoutError.fault = some fault

section

variable {o : Options} {s s' : Draft} {index n : Nat} {t v : Token} {ts : List Token}
  {fault : TokenFault ⊕ BindingFault}

lemma Halts.here {e : LayoutError} (h : s.step o index t ts = .error e) (ht : t.kind ≠ .blank) :
    Halts o s index (t :: ts) 0 t e.fault := by
  constructor <;> simp [steps, h, ht, solid]

lemma Halts.blank (h : Halts o s' (index + 1) ts n v fault) (hstep : s.step o index t ts = .ok s')
    (hb : t.kind = .blank) : Halts o s index (t :: ts) n v fault where
  token := by
    rw [steps_cons_ok hstep]
    exact h.token
  kind_ne_blank := h.kind_ne_blank
  before := by
    rw [steps_cons_ok hstep, List.length_cons, List.take_succ_cons, solid_cons_of_blank hb]
    exact h.before
  error := by
    rw [steps_cons_ok hstep]
    exact h.error

lemma Halts.later (h : Halts o s' (index + 1) ts n v fault) (hstep : s.step o index t ts = .ok s')
    (hb : t.kind ≠ .blank) : Halts o s index (t :: ts) (n + 1) v fault where
  token := by
    rw [steps_cons_ok hstep]
    exact h.token
  kind_ne_blank := h.kind_ne_blank
  before := by
    rw [steps_cons_ok hstep, List.length_cons, List.take_succ_cons, solid_cons_of_solid hb,
      List.length_cons, h.before]
  error := by
    rw [steps_cons_ok hstep]
    exact h.error

end

/-- In front of each opening bracket, but for one that begins the page, blanks stand in both token
sequences or in none. -/
def SameGaps (s u : Draft) (ts us : List Token) : Prop :=
  ∀ n t b, 0 < n ∨ s.page ≠ .empty → (gapped (s.previous = some .blank) ts)[n]? = some (t, b) →
    t.kind = .opening → ∃ v, (gapped (u.previous = some .blank) us)[n]? = some (v, b)

section

variable {o : Options} {s u : Draft} {t v : Token} {ts us : List Token}

lemma SameGaps.blank_left (h : SameGaps s u (t :: ts) us) (hb : t.kind = .blank) :
    SameGaps { s with previous := some .blank } u ts us := by
  intro n w b hn hw
  have hget := h n w b hn
  rw [gapped_cons_of_blank hb] at hget
  exact hget (by simpa using hw)

lemma SameGaps.blank_right (h : SameGaps s u ts (v :: us)) (hb : v.kind = .blank) :
    SameGaps s { u with previous := some .blank } ts us := by
  intro n w b hn hw hk
  have hget := h n w b hn hw hk
  rw [gapped_cons_of_blank hb] at hget
  simpa using hget

lemma SameGaps.step (h : SameGaps s u (t :: ts) (v :: us)) (ht : t.kind ≠ .blank) (hv : v.kind ≠ .blank)
    {s' u' : Draft} (hs' : s'.previous = some t.kind) (hu' : u'.previous = some v.kind) :
    SameGaps s' u' ts us := by
  intro n w b _ hw hk
  have hget := h (n + 1) w b (.inl (by omega))
  rw [gapped_cons_of_solid ht, gapped_cons_of_solid hv, List.getElem?_cons_succ,
    List.getElem?_cons_succ] at hget
  simp only [hs', hu', Option.some.injEq, ht, hv, decide_false] at hw ⊢
  exact hget hw hk

lemma SameGaps.head (h : SameGaps s u (t :: ts) (v :: us)) (ht : t.kind ≠ .blank) (hv : v.kind ≠ .blank)
    (hprevious : s.previous ≠ some .blank → u.previous ≠ some .blank → s.previous = u.previous)
    (hk : t.kind = .opening) :
    s.page.trimEnd = s.page ∨ (s.previous = some .blank ∨ s.previous = some .opening ↔
      u.previous = some .blank ∨ u.previous = some .opening) := by
  by_cases hpage : s.page = .empty
  · left
    rw [hpage]
    rfl
  right
  obtain ⟨w, hw⟩ := h 0 t _ (.inr hpage) (by rw [gapped_cons_of_solid ht]; rfl) hk
  rw [gapped_cons_of_solid hv, List.getElem?_cons_zero, Option.some.injEq, Prod.mk.injEq] at hw
  have hblank : u.previous = some .blank ↔ s.previous = some .blank := by simpa using hw.2
  by_cases hs : s.previous = some .blank
  · simp [hs, hblank.mpr hs]
  · rw [hprevious hs fun hu => hs (hblank.mp hu)]

/-- Two runs come to drafts that agree, or they halt at the same token for the same reason. -/
def EndAlike (o : Options) (s : Draft) (index : Nat) (ts : List Token) (u : Draft) (j : Nat)
    (us : List Token) : Prop :=
  (∃ s' u', s.run o index ts = (s', none) ∧ u.run o j us = (u', none) ∧ Agrees s' u') ∨
    ∃ n t v fault, Halts o s index ts n t fault ∧ Halts o u j us n v fault ∧ t.Same v

lemma EndAlike.blank_left {index j : Nat}
    (h : EndAlike o { s with previous := some .blank } (index + 1) ts u j us) (hb : t.kind = .blank) :
    EndAlike o s index (t :: ts) u j us := by
  rcases h with ⟨s', u', hs, hu, h'⟩ | ⟨n, w, v, fault, hs, hu, h'⟩
  · refine .inl ⟨s', u', ?_, hu, h'⟩
    rw [run, step_blank hb]
    exact hs
  · exact .inr ⟨n, w, v, fault, hs.blank (step_blank hb index) hb, hu, h'⟩

lemma EndAlike.blank_right {index j : Nat}
    (h : EndAlike o s index ts { u with previous := some .blank } (j + 1) us) (hb : v.kind = .blank) :
    EndAlike o s index ts u j (v :: us) := by
  rcases h with ⟨s', u', hs, hu, h'⟩ | ⟨n, t, w, fault, hs, hu, h'⟩
  · refine .inl ⟨s', u', hs, ?_, h'⟩
    rw [run, step_blank hb]
    exact hu
  · exact .inr ⟨n, t, w, fault, hs, hu.blank (step_blank hb j) hb, h'⟩

lemma EndAlike.step {s₁ u₁ : Draft} {index j : Nat} (h : EndAlike o s₁ (index + 1) ts u₁ (j + 1) us)
    (ht : t.kind ≠ .blank) (hv : v.kind ≠ .blank) (hs : s.step o index t ts = .ok s₁)
    (hu : u.step o j v us = .ok u₁) : EndAlike o s index (t :: ts) u j (v :: us) := by
  rcases h with ⟨s', u', hs', hu', h'⟩ | ⟨n, w, x, fault, hs', hu', h'⟩
  · refine .inl ⟨s', u', ?_, ?_, h'⟩
    · rw [run, hs]
      exact hs'
    · rw [run, hu]
      exact hu'
  · exact .inr ⟨n + 1, w, x, fault, hs'.later hs ht, hu'.later hu hv, h'⟩

/-- Two token sequences that differ in blanks elsewhere than in front of brackets are laid out in
step, to their ends or to the same token. -/
lemma run_agrees (h : Agrees s u)
    (hprevious : s.previous ≠ some .blank → u.previous ≠ some .blank → s.previous = u.previous)
    (hsame : List.Forall₂ Token.Same (solid ts) (solid us))
    (hgaps : SameGaps s u ts us) (index j : Nat) : EndAlike o s index ts u j us := by
  induction hn : ts.length + us.length using Nat.strongRecOn generalizing s u ts us index j with
  | _ n ih =>
    by_cases hleft : ∃ t ts', ts = t :: ts' ∧ t.kind = .blank
    · obtain ⟨t, ts, rfl, hb⟩ := hleft
      rw [solid_cons_of_blank hb] at hsame
      have hagree : Agrees { s with previous := some .blank } u := by
        obtain ⟨p, n, rfl⟩ := h
        exact ⟨p, n, rfl⟩
      rw [List.length_cons] at hn
      exact (ih (ts.length + us.length) (by omega) hagree (by simp) hsame (hgaps.blank_left hb)
        (index + 1) j rfl).blank_left hb
    by_cases hright : ∃ v us', us = v :: us' ∧ v.kind = .blank
    · obtain ⟨v, us, rfl, hb⟩ := hright
      rw [solid_cons_of_blank hb] at hsame
      have hagree : Agrees s { u with previous := some .blank } := by
        obtain ⟨p, n, rfl⟩ := h
        exact ⟨some .blank, n, rfl⟩
      rw [List.length_cons] at hn
      exact (ih (ts.length + us.length) (by omega) hagree (by simp) hsame (hgaps.blank_right hb)
        index (j + 1) rfl).blank_right hb
    cases ts with
    | nil =>
      cases us with
      | nil => exact .inl ⟨s, u, rfl, rfl, h⟩
      | cons v us =>
        rw [solid_cons_of_solid fun hb => hright ⟨v, us, rfl, hb⟩] at hsame
        cases hsame
    | cons t ts =>
      have ht : t.kind ≠ .blank := fun hb => hleft ⟨t, ts, rfl, hb⟩
      rw [solid_cons_of_solid ht] at hsame
      cases us with
      | nil => cases hsame
      | cons v us =>
        have hv : v.kind ≠ .blank := fun hb => hright ⟨v, us, rfl, hb⟩
        rw [solid_cons_of_solid hv] at hsame
        obtain ⟨htv, hsame⟩ := List.forall₂_cons.mp hsame
        rcases step_agrees (o := o) h htv hsame (hgaps.head ht hv hprevious) index j with
          ⟨s₁, u₁, hs, hu, hagree, hs₁, hu₁⟩ | ⟨e, f, hs, hu, hfault⟩
        · simp only [List.length_cons] at hn
          have hrest := ih (ts.length + us.length) (by omega) hagree (fun _ _ => hs₁.trans hu₁.symm) hsame
            (hgaps.step ht hv hs₁ (htv.kind ▸ hu₁)) (index + 1) (j + 1) rfl
          exact hrest.step ht hv hs hu
        · exact .inr ⟨0, t, v, e.fault, .here hs ht, hfault ▸ .here hu hv, htv⟩

end

end Draft

open Draft

/-- Blanks of the source matter only directly in front of an opening bracket. Two token sequences with
the same tokens, blanks apart, of which each opening bracket but a first one stands behind a blank in
both or in none, have the same layout, or the layout fails at the same token and for the same
reason. -/
theorem layout_eq_of_same_gaps (o : Options) (ts us : List Token)
    (hsame : List.Forall₂ Token.Same (solid ts) (solid us))
    (hgaps : ∀ n t b, 0 < n → (gapped false ts)[n]? = some (t, b) → t.kind = .opening →
      ∃ u, (gapped false us)[n]? = some (u, b)) :
    (∃ text, layout o ts = .ok text ∧ layout o us = .ok text) ∨
    ∃ e f n t u, layout o ts = .error e ∧ layout o us = .error f ∧ e.fault = f.fault ∧
      ts[(steps o {} 0 ts).1.length]? = some t ∧ us[(steps o {} 0 us).1.length]? = some u ∧
      t.Same u ∧ t.kind ≠ .blank ∧ (solid (ts.take (steps o {} 0 ts).1.length)).length = n ∧
      (solid (us.take (steps o {} 0 us).1.length)).length = n := by
  have hstart : SameGaps {} {} ts us := by
    intro n t b hn
    exact hgaps n t b (hn.resolve_right (by simp))
  rcases run_agrees (o := o) (Agrees.refl {}) (fun _ _ => rfl) hsame hstart 0 0 with
    ⟨s, u, hs, hu, h⟩ | ⟨n, t, v, fault, hs, hu, htv⟩
  · refine .inl ⟨s.text, by rw [layout, hs], ?_⟩
    rw [layout, hu, h.text_eq]
  · right
    obtain ⟨e, he, hfault⟩ := Option.map_eq_some_iff.mp hs.error
    obtain ⟨f, hf, hfault'⟩ := Option.map_eq_some_iff.mp hu.error
    refine ⟨e, f, n, t, v, ?_, ?_, hfault.trans hfault'.symm, hs.token, hu.token, htv,
      hs.kind_ne_blank, hs.before, hu.before⟩
    · rw [layout, run_eq_steps, he]
    · rw [layout, run_eq_steps, hf]

theorem layout_eq_of_same_gaps_of_call :
    ∃ text, layout {} [⟨.word, ['f'], none, none⟩, ⟨.blank, [' '], none, none⟩,
        ⟨.opening, ['('], none, none⟩, ⟨.closing, [')'], none, none⟩] = .ok text ∧
      layout {} [⟨.blank, ['\n'], none, none⟩, ⟨.word, ['f'], none, none⟩, ⟨.blank, ['\t'], none, none⟩,
        ⟨.opening, ['('], none, none⟩, ⟨.blank, [' '], none, none⟩, ⟨.closing, [')'], none, none⟩] =
        .ok text := by
  have hgaps : ∀ n t b, 0 < n → (gapped false
      [⟨.word, ['f'], none, none⟩, ⟨.blank, [' '], none, none⟩, ⟨.opening, ['('], none, none⟩,
        ⟨.closing, [')'], none, none⟩])[n]? = some (t, b) → t.kind = .opening →
      ∃ u, (gapped false
        [⟨.blank, ['\n'], none, none⟩, ⟨.word, ['f'], none, none⟩, ⟨.blank, ['\t'], none, none⟩,
          ⟨.opening, ['('], none, none⟩, ⟨.blank, [' '], none, none⟩,
          ⟨.closing, [')'], none, none⟩])[n]? = some (u, b) := by
    intro n t b hn ht hk
    match n with
    | 1 => exact ⟨t, ht⟩
    | 2 =>
      obtain ⟨rfl, -⟩ := Prod.mk.inj (Option.some.inj ht)
      exact absurd hk (by decide)
    | n + 3 => cases ht
  rcases layout_eq_of_same_gaps {} _ _
    (.cons ⟨rfl, rfl, rfl⟩ (.cons ⟨rfl, rfl, rfl⟩ (.cons ⟨rfl, rfl, rfl⟩ .nil))) hgaps with
    hok | ⟨e, f, n, t, u, herror, -⟩
  · exact hok
  · cases herror

end SqlLayout
