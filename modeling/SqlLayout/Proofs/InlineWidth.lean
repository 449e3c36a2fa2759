import SqlLayout.Proofs.CleanLines
import SqlLayout.Proofs.Growth
import SqlLayout.Proofs.Statements

/-!
# The width of an inline block

Looking ahead from a bracket, `InlineBlock.judge` measures a line that is not written yet. What is then
written can differ from the measure in two ways only: a bracket that stands directly behind a token is
set without the space that was counted in front of it, and a string or a quoted name keeps the blanks
that the measure takes for one. `Draft.Fills` follows the line from token to token; at the closing
bracket the difference is settled to the character.
-/

namespace SqlLayout

open InlineBlock

/-! ### Tokens as they are read -/

/-- A token whose kind and text are what reading gives at some place. -/
def Token.IsRead (t : Token) : Prop :=
  ∃ ctx s l, Lexed ctx t.text s l ∧ l.kind = t.kind

/-- The signs that are set without a space in front of them. -/
def tightSigns : List Char := [',', '.', ':', ';']

lemma Rule.operator_of_tight {ctx : Context} {c : Char} {s : Text} {kind : Kind} (h : Rule ctx [c] s kind)
    (hc : c ∈ tightSigns) : kind = .operator := by
  have hsigns : ∀ c ∈ tightSigns, c ≠ '(' ∧ c ≠ ')' ∧ c ≠ '?' ∧ c ≠ '-' ∧ c.isDigit = false ∧
      Text.isWordChar c = false := List.all_iff_forall_prop.mp (by decide)
  have hsign := hsigns c hc
  cases h with
  | opening hx => exact absurd (List.cons.inj hx).1 hsign.1
  | closing hx => exact absurd (List.cons.inj hx).1 hsign.2.1
  | index ds hx => exact absurd (List.cons.inj hx).1 hsign.2.2.1
  | quotedName d q y _ _ hx => simp at hx
  | bareName d y _ hx hy => exact absurd (List.cons.inj hx).2.symm hy
  | number hn =>
    rw [List.cons_append, numberSize?_eq_none hsign.2.2.2.1 hsign.2.2.2.2.1] at hn
    simp at hn
  | keyword role ws _ hx =>
    rw [Text.startsWord_cons, hsign.2.2.2.2.2] at hx
    simp at hx
  | word _ hword =>
    have hc := hword c List.mem_cons_self
    rw [hsign.2.2.2.2.2] at hc
    simp at hc
  | operator => rfl

namespace Token.IsRead

variable {t : Token}

lemma proper (h : t.IsRead) : t.Proper := by
  obtain ⟨ctx, s, l, hlexed, hkind⟩ := h
  exact hlexed.proper rfl hkind.symm

lemma operator_of_tight (h : t.IsRead) {c : Char} (hc : c ∈ tightSigns) (ht : t.text = [c]) :
    t.kind = .operator := by
  obtain ⟨ctx, s, l, hlexed, hkind⟩ := h
  have hsigns : ∀ c ∈ tightSigns, Text.isBlank c = false ∧ c ≠ '-' ∧ c ≠ '#' ∧ c ≠ 'N' ∧
      (c ∈ openingSigns → c = ':') := List.all_iff_forall_prop.mp (by decide)
  have hsign := hsigns c hc
  rw [ht] at hlexed
  rw [← hkind]
  rcases hlexed.cases with ⟨-, hb⟩ | ⟨-, hhead, -⟩ | ⟨-, body, hbody, -⟩ | ⟨-, hstring⟩ | ⟨hplain, hl⟩
  · rw [Text.startsBlank_cons, hsign.1] at hb
    simp at hb
  · rcases hhead with hhead | hhead
    · exact absurd (by simpa using hhead) hsign.2.1
    · exact absurd (by simpa using hhead) hsign.2.2.1
  · simp at hbody
  · obtain ⟨d, r, hd, hquote⟩ := hstring.head
    obtain ⟨rfl, -⟩ := List.cons.inj hd
    rcases hquote with hquote | ⟨hquote, hcolon⟩
    · exact absurd hquote hsign.2.2.2.1
    · exact absurd (hsign.2.2.2.2 hquote) hcolon
  · exact (Rule.of_plain hplain hl hlexed.size hlexed.ne_nil).operator_of_tight hc

lemma collapse_text (h : t.IsRead) (hk : t.kind = .word ∨ t.kind = .number ∨ t.kind = .operator ∨
    t.kind = .opening ∨ t.kind = .closing) : Text.collapse t.text = t.text := by
  obtain ⟨ctx, s, l, hlexed, hkind⟩ := h
  have hcontent : l.kind ≠ .blank ∧ l.kind.isComment = false ∧ l.kind ≠ .quoted ∧ l.kind ≠ .placeholder ∧
      ∀ role, l.kind ≠ .keyword role := by
    rw [hkind]
    rcases hk with hk | hk | hk | hk | hk <;> simp [hk, Kind.isComment]
  obtain ⟨hb, hc, hq, hp, hrole⟩ := hcontent
  have hsolid := hlexed.solid hb hc
  rcases hlexed.content hb hc with ⟨hquoted, -⟩ | ⟨-, hrule⟩
  · exact absurd hquoted hq
  · exact Text.collapse_eq_self (hrule.not_isBlank hsolid.head hp hrole)

lemma solid_written (h : t.IsRead) (hb : t.kind ≠ .blank) (hc : t.kind.isComment = false) :
    t.written.Solid := by
  obtain ⟨ctx, s, l, hlexed, hkind⟩ := h
  have hsolid : t.text.Solid := hlexed.solid (by rwa [hkind]) (by rwa [hkind])
  unfold Token.written
  split
  · exact hsolid.collapse
  · exact hsolid

section

variable (h : t.IsRead) (hk : t.kind ≠ .operator)
include h hk

lemma text_ne {c : Char} (hc : c ∈ tightSigns) : t.text ≠ [c] :=
  fun ht => hk (h.operator_of_tight hc ht)

lemma takesSpace_eq : takesSpace t = decide (t.kind ≠ .closing) := by
  have h1 := h.text_ne hk (c := ',') (by decide)
  have h2 := h.text_ne hk (c := '.') (by decide)
  have h3 := h.text_ne hk (c := ':') (by decide)
  have h4 := h.text_ne hk (c := ';') (by decide)
  simp [takesSpace, Token.isText, h1, h2, h3, h4]

lemma leavesSpace_eq : leavesSpace t = decide (t.kind ≠ .opening) := by
  have h2 := h.text_ne hk (c := '.') (by decide)
  simp [leavesSpace, Token.isText, h2]

end

end Token.IsRead

/-! ### Measuring -/

/-- The blanks of a string or a name that do not count when it is measured. -/
def Token.lostBlanks (t : Token) : Nat :=
  match t.kind with
  | .quoted | .placeholder => t.text.length - (Text.collapse t.text).length
  | _ => 0

def lostBlanks : List Token → Nat
  | [] => 0
  | t :: ts => t.lostBlanks + lostBlanks ts

lemma lostBlanks_concat (ts : List Token) {t : Token} (ht : t.kind = .closing) :
    lostBlanks (ts ++ [t]) = lostBlanks ts := by
  induction ts with
  | nil =>
    have hlost : t.lostBlanks = 0 := by rw [Token.lostBlanks, ht]
    exact hlost
  | cons u us ih => rw [List.cons_append, lostBlanks, lostBlanks, ih]

lemma lostBlanks_eq_zero {ts : List Token} (h : ∀ t ∈ ts, t.kind = .quoted ∨ t.kind = .placeholder →
    (Text.collapse t.text).length = t.text.length) : lostBlanks ts = 0 := by
  induction ts with
  | nil => rfl
  | cons t ts ih =>
    obtain ⟨ht, hts⟩ := List.forall_mem_cons.mp h
    rw [lostBlanks, ih hts, Token.lostBlanks]
    split
    · next hk => rw [ht (.inl hk), Nat.sub_self]
    · next hk => rw [ht (.inr hk), Nat.sub_self]
    · rfl

lemma Text.length_collapse_le (t : Text) : (collapse t).length ≤ t.length := by
  fun_induction collapse t with
  | case1 => rfl
  | case2 c cs _ _ ih => exact Nat.le_succ_of_le ih
  | case3 c cs _ _ ih => exact Nat.succ_le_succ ih
  | case4 c cs _ ih => exact Nat.succ_le_succ ih

lemma Token.IsRead.length_written {t : Token} (h : t.IsRead) (hb : t.kind ≠ .blank)
    (hc : t.kind.isComment = false) :
    t.written.length = (Text.collapse t.text).length + t.lostBlanks := by
  have hle := Text.length_collapse_le t.text
  have hproper := h.proper
  unfold Token.written Token.lostBlanks
  cases hk : t.kind with
  | blank => exact absurd hk hb
  | lineComment | blockComment => simp [hk, Kind.isComment] at hc
  | unclassified name => simp [Token.Proper, hk] at hproper
  | keyword role => rfl
  | quoted | placeholder =>
    dsimp only
    omega
  | word | number | operator | opening | closing =>
    dsimp only
    rw [h.collapse_text (by simp [hk]), Nat.add_zero]

namespace InlineBlock

/-- The characters that some tokens take on a line behind another one, as they are measured. -/
def measured (p : Option Token) : List Token → Nat
  | [] => 0
  | t :: ts =>
    if t.kind = .blank then measured p ts else width p t + measured (some t) ts

/-- A bracket that stands directly behind another token is measured with a space, but set without. -/
def sparesSpace (p : Option Token) (blank : Bool) (t : Token) : Bool :=
  p.any leavesSpace && t.kind = .opening && !blank

/-- The spaces that are measured but not set. -/
def spared (p : Option Token) (blank : Bool) : List Token → Nat
  | [] => 0
  | t :: ts =>
    if t.kind = .blank then spared p true ts
    else (sparesSpace p blank t).toNat + spared (some t) false ts

variable {limit : Int} {p : Option Token} {length d : Nat} {depth : Int} {t : Token} {ts : List Token}

lemma judgeFrom_tail (hb : t.kind ≠ .blank) (hlast : ¬(t.kind = .closing ∧ depthAfter depth t = 0))
    (h : judgeFrom limit p length depth (t :: ts) = .fits) :
    judgeFrom limit (some t) (length + width p t) (depthAfter depth t) ts = .fits := by
  rw [judgeFrom_cons hb, if_neg hlast] at h
  split at h
  · simp at h
  split at h
  · simp at h
  · exact h

lemma measured_le_of_judgeFrom {us rest : List Token} (h : Encloses d us t)
    (hfits : judgeFrom limit p length d (us ++ t :: rest) = .fits) :
    (length + measured p (us ++ [t]) : Nat) ≤ limit := by
  induction h generalizing p length with
  | @last t ht =>
    have hb : t.kind ≠ .blank := by simp [ht]
    rw [List.nil_append, judgeFrom_cons hb] at hfits
    split at hfits
    · simp at hfits
    · next hle =>
      rw [List.nil_append, measured, if_neg hb, measured]
      omega
  | @opening d u t us hd hu _ _ ih =>
    have hb : u.kind ≠ .blank := by simp [hu]
    have hdepth : depthAfter d u = (d + 1 : Nat) := by simp [depthAfter, hu]
    have htail := judgeFrom_tail hb (by simp [hu]) hfits
    rw [hdepth] at htail
    rw [List.cons_append, measured, if_neg hb, ← Nat.add_assoc]
    exact ih htail
  | @closing d u t us hu _ hrest ih =>
    have hb : u.kind ≠ .blank := by simp [hu]
    have hdepth : depthAfter (d + 1 : Nat) u = d := by simp [depthAfter, hu]
    have hpos := hrest.pos
    have htail := judgeFrom_tail hb (by rw [hdepth]; omega) hfits
    rw [hdepth] at htail
    rw [List.cons_append, measured, if_neg hb, ← Nat.add_assoc]
    exact ih htail
  | @other d u t us ho hc _ _ ih =>
    by_cases hb : u.kind = .blank
    · rw [List.cons_append, judgeFrom_blank hb] at hfits
      rw [List.cons_append, measured, if_pos hb]
      exact ih hfits
    · have hdepth : depthAfter d u = d := by
        revert ho hc
        cases hk : u.kind <;> simp [depthAfter, hk]
      have htail := judgeFrom_tail hb (fun h => hc h.1) hfits
      rw [hdepth] at htail
      rw [List.cons_append, measured, if_neg hb, ← Nat.add_assoc]
      exact ih htail

lemma measured_le_of_judge {u : Token} {us rest : List Token} (hu : u.kind = .opening) (h : Encloses 1 us t)
    (hfits : judge limit (u :: (us ++ t :: rest)) = .fits) :
    (measured none (u :: (us ++ [t])) : Nat) ≤ limit := by
  have hb : u.kind ≠ .blank := by simp [hu]
  have hdepth : depthAfter 0 u = (1 : Nat) := by simp [depthAfter, hu]
  have htail := judgeFrom_tail hb (by simp [hu]) hfits
  rw [hdepth, Nat.zero_add] at htail
  rw [measured, if_neg hb]
  exact measured_le_of_judgeFrom h htail

end InlineBlock

/-! ### Setting -/

namespace Draft

/-- The space that a line has behind a token. -/
def gapBehind (p : Token) : Text :=
  if leavesSpace p then [' '] else []

section

variable {o : Options} {s : Draft} {t : Token}

lemma page_operator_inline (hwrap : o.maxLineLength = 0) (hdepth : 0 < s.inlineDepth)
    (hk : t.kind = .operator) (hsemicolon : t.text ≠ [';']) :
    (s.operator o t.text t.text).page.text =
      (if takesSpace t then s.page.text else s.page.text.trimEnd) ++ (t.text ++ gapBehind t) := by
  have hgap : t.text ≠ ['.'] → gapBehind t = [' '] := by
    intro hdot
    simp [gapBehind, leavesSpace, hk, Token.isText, hdot]
  unfold operator
  split
  · next htext =>
    have htakes : takesSpace t = false := by simp [takesSpace, Token.isText, htext]
    have hinline : 0 < s.dropOverflow.inlineDepth ∨ s.dropOverflow.inLimit = true := .inl hdepth
    rw [htakes, hgap (by simp [htext]), if_neg Bool.false_ne_true, comma, if_pos hinline]
    exact page_writeAttached _
  next hcomma =>
  split
  · next htext =>
    have htakes : takesSpace t = false := by simp [takesSpace, Token.isText, htext]
    rw [htakes, hgap (by simp [htext]), if_neg Bool.false_ne_true]
    exact page_writeAttached _
  next hcolon =>
  split
  · next htext =>
    have htakes : takesSpace t = false := by simp [takesSpace, Token.isText, htext]
    have hnone : gapBehind t = [] := by simp [gapBehind, leavesSpace, Token.isText, htext]
    rw [htakes, hnone, if_neg Bool.false_ne_true, List.append_nil]
    exact page_writeTight _
  next hdot =>
  have htakes : takesSpace t = true := by
    simp [takesSpace, Token.isText, hk, hcomma, hcolon, hdot, hsemicolon]
  rw [htakes, hgap hdot, if_pos rfl]
  exact page_writeWrapped hwrap _

/-- What a token of an inline block does to the page. The space in front of it stays, unless the token is
set tight or is a bracket that stands directly behind another token. -/
lemma page_after_inline (hwrap : o.maxLineLength = 0) (hheld : s.held = []) (hdepth : 0 < s.inlineDepth)
    (ht : t.IsRead) (hb : t.kind ≠ .blank) (hplain : breaksLine t = false) (index : Nat) (rest : List Token) :
    (s.after o index t rest).page.text =
      (if takesSpace t ∧ (t.kind = .opening → s.previous = some .blank ∨ s.previous = some .opening)
        then s.page.text else s.page.text.trimEnd) ++ (t.written ++ gapBehind t) := by
  have hfree : { s with held := [] } = s := by
    rw [← hheld]
  have hproper := ht.proper
  have hspaced : t.kind ≠ .operator → t.kind ≠ .closing → t.kind ≠ .opening →
      (takesSpace t ∧ (t.kind = .opening → s.previous = some .blank ∨ s.previous = some .opening)) ∧
        gapBehind t = [' '] := by
    intro hop hc ho
    rw [ht.takesSpace_eq hop, gapBehind, ht.leavesSpace_eq hop]
    simp [hc, ho]
  change (s.placed o index t rest t.text s.used).page.text = _
  unfold placed Token.written
  rw [hfree, hheld, List.nil_append]
  cases hk : t.kind with
  | blank => exact absurd hk hb
  | lineComment | blockComment => simp [breaksLine, hk] at hplain
  | unclassified name => simp [Token.Proper, hk] at hproper
  | keyword role =>
    obtain ⟨hkeep, hgap⟩ := hspaced (by simp [hk]) (by simp [hk]) (by simp [hk])
    obtain rfl : role = .plain := by
      cases role <;> simp [breaksLine, hk] at hplain ⊢
    rw [hk] at hkeep
    rw [if_pos hkeep, hgap]
    exact page_writeWrapped hwrap _
  | opening =>
    have hinline : 0 < s.inlineDepth ∨ judge o.inlineLimit (t :: rest) = .fits := .inl hdepth
    have hopen := page_opening hinline index t.text
    have hgap : gapBehind t = [] := by simp [gapBehind, leavesSpace, hk]
    have htakes : takesSpace t = true := by simp [ht.takesSpace_eq (by simp [hk]), hk]
    simp only [hopen, Page.text_append, hgap, htakes, List.append_nil, true_and, forall_const]
    unfold beforeBracket
    split
    · rfl
    · rw [trimEnd, Page.text_trimEnd]
  | closing =>
    have hgap : gapBehind t = [' '] := by simp [gapBehind, ht.leavesSpace_eq (by simp [hk]), hk]
    have htakes : takesSpace t = false := by simp [takesSpace, hk]
    simp only [closing, if_pos hdepth, hgap, htakes, Bool.false_eq_true, false_and, if_false]
    exact page_writeAttached _
  | operator =>
    have hsemicolon : t.text ≠ [';'] := by
      intro htext
      simp [breaksLine, hk, Token.isText, htext] at hplain
    simp only [reduceCtorEq, false_implies, and_true]
    exact page_operator_inline hwrap hdepth hk hsemicolon
  | placeholder =>
    obtain ⟨hkeep, hgap⟩ := hspaced (by simp [hk]) (by simp [hk]) (by simp [hk])
    rw [hk] at hkeep
    rw [if_pos hkeep, hgap]
    exact Page.text_append _ _
  | word | quoted | number =>
    obtain ⟨hkeep, hgap⟩ := hspaced (by simp [hk]) (by simp [hk]) (by simp [hk])
    rw [hk] at hkeep
    rw [if_pos hkeep, hgap]
    exact page_writeWrapped hwrap _

end

/-- The line of an inline block in the making: from where the block begins, the page has the given number
of characters and the space behind the last token. Blanks may have been read since that token. -/
structure Fills (before : Text) (n : Nat) (p : Token) (blank : Bool) (s : Draft) : Prop where
  held : s.held = []
  last : p.kind ≠ .blank
  previous : s.previous = some (if blank then .blank else p.kind)
  page : ∃ z, s.page.text = before ++ z ++ gapBehind p ∧ (before ++ z).trimEnd = before ++ z ∧ z.length = n

/-- The line of an inline block at its end: from where the block begins, the page has as many characters as
were measured, with the blanks that did not count and without the spaces that were spared. -/
def Completes (before : Text) (n : Nat) (p : Token) (blank : Bool) (ts : List Token) (s : Draft) : Prop :=
  ∃ x, s.page.text = before ++ x ++ [' '] ∧ (before ++ x).trimEnd = before ++ x ∧
    x.length + spared (some p) blank ts = n + measured (some p) ts + lostBlanks ts

section

variable {o : Options} {s s' : Draft} {before : Text} {n index : Nat} {p t : Token} {blank : Bool}
  {ts rest : List Token}

lemma Fills.skip (h : Fills before n p blank s) (hb : t.kind = .blank) :
    Fills before n p true (s.after o index t rest) := by
  rw [after_blank hb]
  exact ⟨h.held, h.last, rfl, h.page⟩

lemma Fills.exists_gap (h : Fills before n p blank s) (hwrap : o.maxLineLength = 0)
    (hdepth : 0 < s.inlineDepth) (ht : t.IsRead) (hb : t.kind ≠ .blank) (hplain : breaksLine t = false)
    (index : Nat) (rest : List Token) :
    ∃ z gap : Text, z.length = n ∧
      (s.after o index t rest).page.text = before ++ (z ++ gap ++ t.written) ++ gapBehind t ∧
      gap.length + (sparesSpace (some p) blank t).toNat =
        if (some p).any leavesSpace && takesSpace t then 1 else 0 := by
  obtain ⟨z, hpage, htrim, hz⟩ := h.page
  have hblank : (gapBehind p).isAllBlank = true := by
    unfold gapBehind
    split <;> rfl
  have hany : (some p).any leavesSpace = leavesSpace p := rfl
  have hset := page_after_inline hwrap h.held hdepth ht hb hplain index rest
  rw [hpage, Text.trimEnd_append_blank hblank, htrim] at hset
  rw [sparesSpace, hany]
  split at hset
  · next hkeep =>
    refine ⟨z, gapBehind p, hz, by rw [hset]; simp, ?_⟩
    have hnone : (leavesSpace p && t.kind = .opening && !blank) = false := by
      cases blank with
      | true => simp
      | false =>
        by_cases ho : t.kind = .opening
        · have hp : p.kind = .opening := by simpa [h.previous, h.last] using hkeep.2 ho
          simp [leavesSpace, hp]
        · simp [ho]
    rw [hnone, hkeep.1, Bool.and_true, gapBehind]
    split <;> rfl
  · next hdrop =>
    refine ⟨z, [], hz, by rw [hset]; simp, ?_⟩
    by_cases htakes : takesSpace t = true
    · have ho : t.kind = .opening ∧ blank = false := by
        cases blank <;> simp [htakes, h.previous] at hdrop ⊢
        exact hdrop.1
      simp only [ho.1, ho.2, htakes]
      cases leavesSpace p <;> rfl
    · have ho : t.kind ≠ .opening := by
        intro ho
        exact htakes (by simp [ht.takesSpace_eq (by simp [ho]), ho])
      simp [htakes, ho]

lemma Fills.set (h : Fills before n p blank s) (hwrap : o.maxLineLength = 0) (hdepth : 0 < s.inlineDepth)
    (ht : t.IsRead) (hb : t.kind ≠ .blank) (hplain : breaksLine t = false)
    (hstep : s.step o index t rest = .ok (s.after o index t rest)) :
    ∃ m, Fills before m t false (s.after o index t rest) ∧
      m + (sparesSpace (some p) blank t).toNat = n + width (some p) t + t.lostBlanks := by
  obtain ⟨z, gap, hz, hpage, hgap⟩ := h.exists_gap hwrap hdepth ht hb hplain index rest
  have hc : t.kind.isComment = false := by
    revert hplain
    cases hk : t.kind <;> simp [breaksLine, hk, Kind.isComment]
  have hlength := ht.length_written hb hc
  have hheld : (s.after o index t rest).held = [] := by
    rcases held_of_step hstep with ⟨-, hheld⟩ | hheld | ⟨-, hzero, -⟩
    · exact hheld.trans h.held
    · exact hheld
    · exact absurd hzero (Nat.ne_of_gt hdepth)
  refine ⟨(z ++ gap ++ t.written).length, ⟨hheld, hb, rfl, _, hpage, ?_, rfl⟩, ?_⟩
  · rw [← List.append_assoc]
    exact Text.trimEnd_append_solid (ht.solid_written hb hc)
  · rw [width_eq, List.length_append, List.length_append]
    omega

lemma Completes.cons {m : Nat} (hb : t.kind ≠ .blank) (h : Completes before m t false ts s)
    (hm : m + (sparesSpace (some p) blank t).toNat =
      n + width (some p) t + t.lostBlanks) : Completes before n p blank (t :: ts) s := by
  obtain ⟨x, hpage, htrim, hx⟩ := h
  refine ⟨x, hpage, htrim, ?_⟩
  rw [spared, if_neg hb, measured, if_neg hb, lostBlanks]
  omega

lemma Completes.cons_blank (hb : t.kind = .blank) (h : Completes before n p true ts s) :
    Completes before n p blank (t :: ts) s := by
  obtain ⟨x, hpage, htrim, hx⟩ := h
  have hlost : t.lostBlanks = 0 := by
    rw [Token.lostBlanks, hb]
  refine ⟨x, hpage, htrim, ?_⟩
  rw [spared, if_pos hb, measured, if_pos hb, lostBlanks, hlost, Nat.zero_add]
  exact hx

/-- A run through the rest of an inline block completes its line. -/
lemma Fills.completes {us : List Token} {v : Token} {drafts : List Draft} (h : Fills before n p blank s)
    (hwrap : o.maxLineLength = 0) (hbind : o.bindings = .none) (hread : ∀ t ∈ us ++ [v], t.IsRead)
    (hplain : ∀ u ∈ us, u.kind = .blank ∨ breaksLine u = false) (hv : v.kind = .closing)
    (hsteps : s.steps o index (us ++ v :: rest) = (drafts, none))
    (hactive : ∀ k ≤ us.length, 0 < (draftAt s drafts k).inlineDepth) :
    Completes before n p blank (us ++ [v]) (draftAt s drafts (us.length + 1)) := by
  have hdepth : 0 < s.inlineDepth := hactive 0 (Nat.zero_le _)
  induction us generalizing s n p blank index drafts with
  | nil =>
    have ht := hread v (by simp)
    have hb : v.kind ≠ .blank := by simp [hv]
    obtain ⟨s', later, hstep, -, rfl⟩ := steps_cons_inv hsteps
    have hafter := step_eq_after (s := s) hbind ht.proper index rest
    obtain rfl : s' = s.after o index v rest := Except.ok.inj (hstep.symm.trans hafter)
    have hends : breaksLine v = false := by
      simp [breaksLine, hv, Token.isText, ht.text_ne (by simp [hv]) (c := ';') (by decide)]
    obtain ⟨m, hfills, hm⟩ := h.set hwrap hdepth ht hb hends hafter
    obtain ⟨z, hpage, htrim, hz⟩ := hfills.page
    have hgap : gapBehind v = [' '] := by
      simp [gapBehind, ht.leavesSpace_eq (by simp [hv]), hv]
    rw [hgap] at hpage
    exact Completes.cons hb ⟨z, hpage, htrim, by rw [hz]; rfl⟩ hm
  | cons t us ih =>
    obtain ⟨ht, hread⟩ := List.forall_mem_cons.mp hread
    obtain ⟨hp, hplain⟩ := List.forall_mem_cons.mp hplain
    obtain ⟨s', later, hstep, hlater, rfl⟩ := steps_cons_inv hsteps
    have hafter := step_eq_after (s := s) hbind ht.proper index (us ++ v :: rest)
    obtain rfl : s' = s.after o index t (us ++ v :: rest) := Except.ok.inj (hstep.symm.trans hafter)
    have hactive' : ∀ k ≤ us.length, 0 < (draftAt _ later k).inlineDepth :=
      fun k hk => hactive (k + 1) (Nat.succ_le_succ hk)
    by_cases hb : t.kind = .blank
    · exact .cons_blank hb (ih (h.skip hb) hread hplain hlater hactive' (hactive' 0 (Nat.zero_le _)))
    · obtain ⟨m, hfills, hm⟩ := h.set hwrap hdepth ht hb (hp.resolve_left hb) hafter
      exact .cons hb (ih hfills hread hplain hlater hactive' (hactive' 0 (Nat.zero_le _))) hm

lemma fills_of_opening (hu : t.kind = .opening) (ht : t.IsRead)
    (hfits : judge o.inlineLimit (t :: rest) = .fits) (hstep : s.step o index t rest = .ok s') :
    ∃ before, s'.page.text = before ++ t.text ∧ Fills before (width none t) t false s' := by
  have hb : t.kind ≠ .blank := by simp [hu]
  obtain ⟨c, used, -, hs'⟩ := exists_placed_of_step hstep
  have hpage : s'.page.text = s.beforeBracket.page.text ++ s.held ++ t.text := by
    have hopen := page_opening (o := o) (s := { s with held := [] }) (.inr hfits) index (s.held ++ t.text)
    rw [hs']
    change (s.placed o index t rest c used).page.text = _
    simp only [placed, hu]
    rw [hopen, Page.text_append, page_beforeBracket_of_held, List.append_assoc]
  have hwritten : t.written = t.text := by simp [Token.written, hu]
  have hgap : gapBehind t = [] := by simp [gapBehind, leavesSpace, hu]
  have hsolid := ht.solid_written hb (by simp [hu, Kind.isComment])
  have hwidth : width none t = t.text.length := by
    rw [width_eq, ht.collapse_text (by simp [hu])]
    simp
  rw [hwritten] at hsolid
  refine ⟨_, hpage, ?_, hb, ?_, t.text, ?_, Text.trimEnd_append_solid hsolid, hwidth.symm⟩
  · rcases held_of_step hstep with ⟨hskip, -⟩ | hheld | ⟨-, -, hcomma, -⟩
    · simp [hu, Kind.isComment] at hskip
    · exact hheld
    · simp [Token.isComma, hu] at hcomma
  · rw [hs']
    rfl
  · rw [hgap, List.append_nil, hpage]

end

end Draft

open Draft

/-- Inline blocks are as wide as they were measured, to the character. From where an inline block begins
on the page to its closing bracket, the line has the characters that looking ahead measured, without a
space for each bracket that stands directly behind another token, and with the blanks in strings and
names that the measure takes for one. So a block is no longer than the limit unless a string or a name
in it has such blanks. What is written up to the closing bracket stays to the end. -/
theorem inline_block_width (o : Options) (hwrap : o.maxLineLength = 0) (hbind : o.bindings = .none)
    (query : Text) (ts : List Token) (h : tokenize .standard query = .ok ts) :
    ∃ drafts, steps o {} 0 ts = (drafts, none) ∧
      ∀ i, (draftAt {} drafts i).inlineDepth = 0 → 0 < (draftAt {} drafts (i + 1)).inlineDepth →
        ∃ front u inner v rest before x, ts = front ++ u :: (inner ++ v :: rest) ∧ front.length = i ∧
          Matches ts i (i + 1 + inner.length) ∧
          (draftAt {} drafts (i + 1)).page.text = before ++ u.text ∧
          (draftAt {} drafts (i + 1 + inner.length + 1)).page.text = before ++ x ++ [' '] ∧
          before ++ x <+: (run o {} 0 ts).1.page.text ∧
          x.length + spared (some u) false (inner ++ [v]) =
            measured none (u :: (inner ++ [v])) + lostBlanks inner ∧
          measured none (u :: (inner ++ [v])) ≤ o.inlineLimit ∧
          ((∀ t ∈ inner, t.kind = .quoted ∨ t.kind = .placeholder →
              (Text.collapse t.text).length = t.text.length) → x.length ≤ o.inlineLimit) := by
  have hreads := (tokensFrom_eq_ok_iff Dialect.standard_substantial).mp h
  have hread : ∀ t ∈ ts, t.IsRead := hreads.exists_lexed
  have hrun := run_succeeds (s := {}) hbind hreads.proper 0
  rw [run_eq_steps] at hrun
  refine ⟨(steps o {} 0 ts).1, Prod.ext rfl hrun, fun i hzero hpos => ?_⟩
  have hsteps : steps o {} 0 ts = ((steps o {} 0 ts).1, none) := Prod.ext rfl hrun
  generalize hdrafts : (steps o {} 0 ts).1 = drafts at hzero hpos hsteps ⊢
  obtain ⟨front, u, inner, v, rest, later, rfl, rfl, hu, hfits, hencloses, hstep, hlater, hat, hone⟩ :=
    exists_block_of_enters hsteps hzero hpos
  have hblock : ∀ t ∈ inner ++ [v], t.IsRead := by
    intro t ht
    apply hread
    rcases List.mem_append.mp ht with ht | ht
    · simp [ht]
    · simp [List.mem_singleton.mp ht]
  obtain ⟨before, hbefore, hfills⟩ := fills_of_opening hu (hread u (by simp)) hfits hstep
  have hactive := (runsInline_of_encloses hencloses hone hlater).active
  obtain ⟨x, hpage, htrim, hx⟩ := hfills.completes hwrap hbind hblock hencloses.plain hencloses.last_kind
    hlater hactive
  rw [← hat, ← Nat.add_assoc] at hpage
  have hmeasured := Int.ofNat_le.mp (measured_le_of_judge hu hencloses hfits)
  have hcount : x.length + spared (some u) false (inner ++ [v]) =
      measured none (u :: (inner ++ [v])) + lostBlanks inner := by
    rw [hx, lostBlanks_concat inner hencloses.last_kind, measured, if_neg (by simp [hu])]
  refine ⟨front, u, inner, v, rest, before, x, rfl, rfl, hencloses.matches_of_opening hu front rest, hbefore,
    hpage, ?_, hcount, hmeasured, ?_⟩
  · have hk : front.length + 1 + inner.length + 1 ≤
        (steps o {} 0 (front ++ u :: (inner ++ v :: rest))).1.length := by
      rw [hdrafts, length_steps hsteps]
      simp only [List.length_append, List.length_cons]
      omega
    have hgrows := grows_to_end hk
    rw [hdrafts] at hgrows
    apply hgrows _ htrim
    rw [hpage]
    exact List.prefix_append _ _
  · intro hsingle
    have hlost := lostBlanks_eq_zero hsingle
    omega

theorem inline_block_width_of_call :
    ∃ ts drafts j before x, tokenize .standard "(\x27a\x27(1))".toList = .ok ts ∧
      steps {} {} 0 ts = (drafts, none) ∧ Matches ts 0 j ∧
      (draftAt {} drafts (j + 1)).page.text = before ++ x ++ [' '] ∧ x.length ≤ 50 := by
  have hreads : Reads Dialect.standard.lexicon .start .start
      (['('] ++ (['\x27', 'a', '\x27'] ++ (['('] ++ (['1'] ++ ([')'] ++ ([')'] ++ [])))))) _ :=
    .cons rfl rfl (by simp) (.cons rfl rfl (by simp) (.cons rfl rfl (by simp) (.cons rfl rfl (by simp)
      (.cons rfl rfl (by simp) (.cons rfl rfl (by simp) (.nil _ _))))))
  have htokens := tokensFrom_of_reads hreads
  obtain ⟨drafts, hsteps, hblocks⟩ := inline_block_width {} rfl rfl _ _ htokens
  obtain rfl := congrArg Prod.fst hsteps
  obtain ⟨front, u, inner, v, rest, before, x, hts, -, hmatches, -, hpage, -, -, -, hfits⟩ :=
    hblocks 0 rfl (by decide)
  have hsingle : ∀ t ∈ front ++ u :: (inner ++ v :: rest), (Text.collapse t.text).length = t.text.length := by
    rw [← hts]
    decide
  exact ⟨_, _, _, before, x, htokens, hsteps, hmatches, hpage, hfits fun t ht _ => hsingle t (by simp [ht])⟩

/-- Blanks in a string are written, but they count for one. -/
theorem inline_block_exceeds_limit : ¬∀ (o : Options), o.maxLineLength = 0 → o.bindings = .none →
    ∀ (query : Text) (ts : List Token) (drafts : List Draft), tokenize .standard query = .ok ts →
    steps o {} 0 ts = (drafts, none) → ∀ (i j : Nat) (u : Token) (before x : Text),
    (draftAt {} drafts i).inlineDepth = 0 → 0 < (draftAt {} drafts (i + 1)).inlineDepth →
    Matches ts i j → ts[i]? = some u → (draftAt {} drafts (i + 1)).page.text = before ++ u.text →
    (draftAt {} drafts (j + 1)).page.text = before ++ x ++ [' '] → x.length ≤ o.inlineLimit := by
  intro h
  have hreads : Reads Dialect.standard.lexicon .start .start
      (['('] ++ (['\x27', ' ', ' ', '\x27'] ++ ([')'] ++ []))) _ :=
    .cons rfl rfl (by simp) (.cons rfl rfl (by simp) (.cons rfl rfl (by simp) (.nil _ _)))
  have hle := h { inlineLimit := 5 } rfl rfl _ _ _ (tokensFrom_of_reads hreads) rfl 0 2 _ []
    "(\x27  \x27)".toList rfl (by decide) ?_ rfl rfl rfl
  · exact absurd hle (by decide)
  · exact (Encloses.other (by decide) (by decide) (.inr rfl) (.last rfl)).matches_of_opening rfl [] []

end SqlLayout
