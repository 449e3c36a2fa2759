import SqlLayout.Proofs.Fidelity

/-!
# Drafts that go on alike

Two drafts are alike if every later token does the same to both of their pages. What a draft
remembers of the token before does not matter for this, except in front of an opening bracket.
-/

namespace SqlLayout

namespace Text

lemma trimStart_append (a b : Text) :
    trimStart (a ++ b) = if trimStart a = [] then trimStart b else trimStart a ++ b := by
  rw [trimStart, List.dropWhile_append]
  split <;> simp_all [trimStart]

lemma trimStart_trimEnd (t : Text) : trimStart (trimEnd t) = trimEnd (trimStart t) := by
  obtain ⟨b, hb, ht⟩ := exists_append_trimStart t
  have hhead := startsBlank_trimStart t
  generalize trimStart t = x at ht hhead
  subst ht
  by_cases hx : x = []
  · rw [hx, List.append_nil, trimEnd_eq_nil hb]
    rfl
  · have hne := trimEnd_ne_nil hhead hx
    rw [trimEnd_append_of_trimEnd_ne_nil hne]
    refine trimStart_blank_append hb ?_
    obtain ⟨g, -, hg⟩ := exists_trimEnd_append x
    rwa [hg, startsBlank_append hne] at hhead

lemma upperLetter_of_isBlank {c : Char} (h : isBlank c = true) : upperLetter c = [c] := by
  have hall : ∀ n ∈ [9, 10, 11, 12, 13, 28, 29, 30, 31, 32, 0x85, 0xa0, 0x1680, 0x2000, 0x2001, 0x2002,
      0x2003, 0x2004, 0x2005, 0x2006, 0x2007, 0x2008, 0x2009, 0x200a, 0x2028, 0x2029, 0x202f, 0x205f,
      0x3000], upperLetter (Char.ofNat n) = [Char.ofNat n] := by decide
  have hc := hall c.toNat (by simp [isBlank] at h ⊢; omega)
  rwa [Char.ofNat_toNat] at hc

lemma mem_upper_of_isBlank {c : Char} {t : Text} (h : isBlank c = true) (hc : c ∈ t) : c ∈ upper t :=
  List.mem_flatMap.mpr ⟨c, hc, by simp [upperLetter_of_isBlank h]⟩

lemma space_mem_collapse {t : Text} {c : Char} (hc : c ∈ t) (h : isBlank c = true) :
    ' ' ∈ collapse t := by
  fun_induction collapse t generalizing c with
  | case1 => simp at hc
  | case2 d cs hd hs ih =>
    cases cs with
    | nil => simp [startsBlank] at hs
    | cons e cs => exact ih (c := e) (by simp) hs
  | case3 => simp
  | case4 d cs hd ih =>
    rcases List.mem_cons.mp hc with rfl | hc
    · exact absurd h hd
    · exact List.mem_cons_of_mem _ (ih hc h)

lemma collapse_eq_self {t : Text} (h : ∀ c ∈ t, isBlank c = false) : collapse t = t := by
  simpa [collapse] using collapse_append_of_solid h []

end Text

namespace Draft

lemma isJoin_collapse (d : Dialect) (t : Text) : isJoin d (Text.collapse t) = isJoin d t := by
  rw [isJoin, Text.collapse_collapse, isJoin]

lemma isLimit_collapse (t : Text) : isLimit (Text.collapse t) = isLimit t := by
  have hfalse : ∀ {x : Text} {c : Char}, Text.isBlank c = true → c ∈ x → isLimit x = false := by
    intro x c hc hx
    have hmem := Text.mem_upper_of_isBlank hc hx
    rw [isLimit, beq_eq_false_iff_ne]
    intro heq
    rw [heq] at hmem
    have hink : ∀ d ∈ "LIMIT".toList, Text.isBlank d = false := List.all_iff_forall_prop.mp (by decide)
    simp [hink c hmem] at hc
  by_cases hb : ∃ c ∈ t, Text.isBlank c = true
  · obtain ⟨c, hmem, hc⟩ := hb
    rw [hfalse hc hmem, hfalse (c := ' ') (by decide) (Text.space_mem_collapse hmem hc)]
  · rw [Text.collapse_eq_self]
    simpa using hb

/-- A draft as an opening bracket finds it: the blanks at its end stay only behind a blank or behind
another opening bracket. -/
def beforeBracket (s : Draft) : Draft :=
  if s.previous = some .blank ∨ s.previous = some .opening then s else s.trimEnd

lemma beforeBracket_dropOverflow (s : Draft) :
    s.dropOverflow.beforeBracket = s.beforeBracket.dropOverflow := by
  by_cases h : s.previous = some .blank ∨ s.previous = some .opening
  · rw [beforeBracket, beforeBracket, if_pos h]
    exact if_pos h
  · rw [beforeBracket, beforeBracket, if_neg h]
    exact if_neg h

lemma opening_eq (o : Options) (s : Draft) (index : Nat) (ts : List Token) (t : Text) :
    s.opening o index ts t = if 0 < s.inlineDepth then
      { s.beforeBracket.dropOverflow with inlineDepth := s.inlineDepth + 1 }.write t
      else match InlineBlock.judge o.inlineLimit ts with
      | .fits => ({ s.beforeBracket.dropOverflow with inlineDepth := 1 }.note (.inlineBlock index)).write t
      | .refused => s.beforeBracket.dropOverflow.openBlock o t
      | .unclosed => (s.beforeBracket.dropOverflow.note (.unclosedBracket index)).openBlock o t := by
  have hdepth : s.beforeBracket.dropOverflow.inlineDepth = s.inlineDepth := by
    rw [beforeBracket]
    split <;> rfl
  have hopen : s.opening o index ts t = if 0 < s.dropOverflow.beforeBracket.inlineDepth then
      { s.dropOverflow.beforeBracket with
        inlineDepth := s.dropOverflow.beforeBracket.inlineDepth + 1 }.write t
      else match InlineBlock.judge o.inlineLimit ts with
      | .fits => ({ s.dropOverflow.beforeBracket with inlineDepth := 1 }.note (.inlineBlock index)).write t
      | .refused => s.dropOverflow.beforeBracket.openBlock o t
      | .unclosed => (s.dropOverflow.beforeBracket.note (.unclosedBracket index)).openBlock o t := rfl
  rw [hopen, beforeBracket_dropOverflow, hdepth]

lemma page_opening {o : Options} {s : Draft} {ts : List Token}
    (h : 0 < s.inlineDepth ∨ InlineBlock.judge o.inlineLimit ts = .fits) (index : Nat) (t : Text) :
    (s.opening o index ts t).page = s.beforeBracket.page.append t := by
  rw [opening_eq]
  split
  · rfl
  · next hz =>
    rw [h.resolve_left hz]
    rfl

lemma page_beforeBracket_of_held (s : Draft) (held : Text) :
    (beforeBracket { s with held := held }).page = s.beforeBracket.page := by
  unfold beforeBracket
  split <;> rfl

/-- Two drafts from which the same tokens make the same page, but for blanks at its start. -/
structure Alike (s u : Draft) : Prop where
  text : s.page.text.trimStart = u.page.text.trimStart
  levels : s.levels = u.levels
  inlineDepth : s.inlineDepth = u.inlineDepth
  inLimit : s.inLimit = u.inLimit
  separated : s.separated = u.separated

namespace Alike

variable {s u v : Draft} {o : Options}

lemma refl (s : Draft) : Alike s s := ⟨rfl, rfl, rfl, rfl, rfl⟩

lemma symm (h : Alike s u) : Alike u s :=
  ⟨h.text.symm, h.levels.symm, h.inlineDepth.symm, h.inLimit.symm, h.separated.symm⟩

lemma trans (h : Alike s u) (h' : Alike u v) : Alike s v :=
  ⟨h.text.trans h'.text, h.levels.trans h'.levels, h.inlineDepth.trans h'.inlineDepth,
    h.inLimit.trans h'.inLimit, h.separated.trans h'.separated⟩

lemma finished (h : Alike s u) : s.text = u.text := by
  rw [Draft.text, Draft.text, Text.trim, Text.trim, h.text]

lemma trimEnd (h : Alike s u) : Alike s.trimEnd u.trimEnd where
  text := by
    simp only [Draft.trimEnd, Page.text_trimEnd, Text.trimStart_trimEnd, h.text]
  levels := h.levels
  inlineDepth := h.inlineDepth
  inLimit := h.inLimit
  separated := h.separated

lemma write (h : Alike s u) (t : Text) : Alike (s.write t) (u.write t) where
  text := by
    simp only [Draft.write, Page.text_append, Text.trimStart_append, h.text]
  levels := h.levels
  inlineDepth := h.inlineDepth
  inLimit := h.inLimit
  separated := rfl

lemma relevel (h : Alike s u) (f : Levels → Levels) : Alike (s.relevel f) (u.relevel f) :=
  ⟨h.text, congrArg f h.levels, h.inlineDepth, h.inLimit, h.separated⟩

lemma newLine (h : Alike s u) (unit : Text) : Alike (s.newLine unit) (u.newLine unit) where
  text := by
    simp only [Draft.newLine, Page.text_append, Page.text_trimEnd, Text.trimStart_append,
      Text.trimStart_trimEnd, h.text, h.levels, h.separated]
  levels := h.levels
  inlineDepth := h.inlineDepth
  inLimit := h.inLimit
  separated := h.separated

lemma writeSpaced (h : Alike s u) (t : Text) : Alike (s.writeSpaced t) (u.writeSpaced t) :=
  h.write _

lemma writeAttached (h : Alike s u) (t : Text) : Alike (s.writeAttached t) (u.writeAttached t) :=
  h.trimEnd.write _

lemma writeTight (h : Alike s u) (t : Text) : Alike (s.writeTight t) (u.writeTight t) :=
  h.trimEnd.write t

lemma separator (h : Alike s u) (t : Text) : Alike (s.separator t) (u.separator t) where
  text := by
    have htext := (h.writeTight t).text
    simp only [Draft.separator, Page.text_append, Text.trimStart_append, htext]
  levels := h.levels
  inlineDepth := h.inlineDepth
  inLimit := h.inLimit
  separated := rfl

lemma writeWrapped (hwrap : o.maxLineLength = 0) (h : Alike s u) (t : Text) :
    Alike (s.writeWrapped o t) (u.writeWrapped o t) := by
  simp only [Draft.writeWrapped, wrapBefore, hwrap, ne_eq, not_true_eq_false, false_and, if_false]
  exact h.writeSpaced t

lemma newLine_trimEnd (s : Draft) (unit : Text) : Alike (s.trimEnd.newLine unit) (s.newLine unit) where
  text := by
    simp only [Draft.newLine, Draft.trimEnd, Page.text_append, Page.text_trimEnd, Text.trimEnd_trimEnd]
    rfl
  levels := rfl
  inlineDepth := rfl
  inLimit := rfl
  separated := rfl

lemma openBlock (h : Alike (s.newLine o.unit) (u.newLine o.unit)) (t : Text) :
    Alike (s.openBlock o t) (u.openBlock o t) :=
  ((h.write t).relevel _).newLine o.unit

lemma closing (h : Alike s u) (t : Text) : Alike (s.closing o t) (u.closing o t) := by
  rw [Draft.closing, Draft.closing, h.inlineDepth]
  split
  · have hleave : Alike { s with inlineDepth := InlineBlock.leave u.inlineDepth }
        { u with inlineDepth := InlineBlock.leave u.inlineDepth } :=
      ⟨h.text, h.levels, rfl, h.inLimit, h.separated⟩
    exact hleave.writeAttached t
  · exact ((h.relevel _).newLine o.unit).writeSpaced t

lemma keyword (hwrap : o.maxLineLength = 0) (h : Alike s u) (role : Role) {own own' t t' : Text}
    (hown : isJoin o.dialect own = isJoin o.dialect own') (ht : Text.collapse t = Text.collapse t') :
    Alike (s.keyword o role own t) (u.keyword o role own' t') := by
  cases role with
  | clause =>
    rw [Draft.keyword, Draft.keyword, clauseKeyword, clauseKeyword, ht]
    exact (((((h.relevel _).relevel _).relevel _).newLine o.unit).relevel _ |>.write _).newLine o.unit
  | breaking =>
    rw [Draft.keyword, Draft.keyword, breakingKeyword, breakingKeyword, ht, hown]
    refine writeSpaced (newLine ?_ o.unit) _
    split
    · exact (h.relevel _).relevel _
    · exact h.relevel _
  | indented =>
    rw [Draft.keyword, Draft.keyword, indentedKeyword, indentedKeyword, ht]
    exact (((h.relevel _).relevel _).newLine o.unit).writeSpaced _
  | plain =>
    rw [Draft.keyword, Draft.keyword, ht]
    exact h.writeWrapped hwrap _

lemma operator (hwrap : o.maxLineLength = 0) (h : Alike s u) {own : Text} (t : Text)
    (hown : own = [','] → 0 < s.inlineDepth ∨ s.inLimit = true) :
    Alike (s.operator o own t) (u.operator o own t) := by
  rw [Draft.operator, Draft.operator]
  split
  · next hcomma =>
    have hset := hown hcomma
    have hset' : 0 < u.inlineDepth ∨ u.inLimit = true := by rwa [← h.inlineDepth, ← h.inLimit]
    have hs : s.comma o t = s.dropOverflow.writeAttached t := if_pos hset
    have hu : u.comma o t = u.dropOverflow.writeAttached t := if_pos hset'
    rw [hs, hu]
    exact (h.relevel _).writeAttached t
  · split
    · exact h.writeAttached t
    · split
      · exact h.writeTight t
      · split
        · exact h.separator t
        · exact h.writeWrapped hwrap t

lemma beforeBracket_newLine (s : Draft) (unit : Text) :
    Alike (s.beforeBracket.newLine unit) (s.newLine unit) := by
  rw [beforeBracket]
  split
  · exact refl _
  · exact newLine_trimEnd s unit

lemma opening_inline {index : Nat} {ts : List Token} (t : Text)
    (h : 0 < s.inlineDepth ∨ InlineBlock.judge o.inlineLimit ts = .fits) :
    Alike (s.opening o index ts t)
      ({ s.beforeBracket.dropOverflow with inlineDepth := s.inlineDepth + 1 }.write t) := by
  rw [opening_eq]
  split
  · exact refl _
  · next hz =>
    have hzero : s.inlineDepth = 0 := by omega
    rw [h.resolve_left hz, hzero]
    exact ⟨rfl, rfl, rfl, rfl, rfl⟩

lemma opening_block {index : Nat} {ts : List Token} (t : Text) (hdepth : s.inlineDepth = 0)
    (hj : InlineBlock.judge o.inlineLimit ts ≠ .fits) :
    Alike (s.opening o index ts t) (s.dropOverflow.openBlock o t) := by
  have hline := beforeBracket_newLine s.dropOverflow o.unit
  rw [beforeBracket_dropOverflow] at hline
  rw [opening_eq, if_neg (by omega)]
  cases hv : InlineBlock.judge o.inlineLimit ts with
  | fits => exact absurd hv hj
  | refused => exact hline.openBlock t
  | unclosed =>
    have hnote : Alike ((s.beforeBracket.dropOverflow.note (.unclosedBracket index)).newLine o.unit)
        (s.dropOverflow.newLine o.unit) :=
      ⟨hline.text, hline.levels, hline.inlineDepth, hline.inLimit, hline.separated⟩
    exact hnote.openBlock t

lemma opening (h : Alike s u) {index index' : Nat} {ts ts' : List Token} (t : Text)
    (hfits : InlineBlock.judge o.inlineLimit ts = .fits ↔ InlineBlock.judge o.inlineLimit ts' = .fits)
    (hkept : 0 < s.inlineDepth ∨ InlineBlock.judge o.inlineLimit ts = .fits →
      Alike s.beforeBracket u.beforeBracket) :
    Alike (s.opening o index ts t) (u.opening o index' ts' t) := by
  by_cases hin : 0 < s.inlineDepth ∨ InlineBlock.judge o.inlineLimit ts = .fits
  · have hin' : 0 < u.inlineDepth ∨ InlineBlock.judge o.inlineLimit ts' = .fits := by
      rwa [← h.inlineDepth, ← hfits]
    have hopen : Alike { s.beforeBracket.dropOverflow with inlineDepth := s.inlineDepth + 1 }
        { u.beforeBracket.dropOverflow with inlineDepth := u.inlineDepth + 1 } :=
      ⟨(hkept hin).text, ((hkept hin).relevel Levels.dropOverflow).levels, by simp [h.inlineDepth],
        (hkept hin).inLimit, (hkept hin).separated⟩
    exact ((opening_inline t hin).trans (hopen.write t)).trans (opening_inline t hin').symm
  · have hdepth : s.inlineDepth = 0 := by omega
    have hj : InlineBlock.judge o.inlineLimit ts ≠ .fits := fun hf => hin (.inr hf)
    exact ((opening_block t hdepth hj).trans (((h.relevel _).newLine o.unit).openBlock t)).trans
      (opening_block t (h.inlineDepth ▸ hdepth) fun hf => hj (hfits.mpr hf)).symm

lemma blockComment (h : Alike (s.newLine o.unit) (u.newLine o.unit)) {t t' : Text}
    (ht : Comment.reindent (s.levels.indentation o.unit) t =
      Comment.reindent (u.levels.indentation o.unit) t') :
    Alike (s.blockComment o t) (u.blockComment o t') := by
  have hs : s.blockComment o t =
      ((s.newLine o.unit).write (Comment.reindent (s.levels.indentation o.unit) t)).newLine o.unit := rfl
  have hu : u.blockComment o t' =
      ((u.newLine o.unit).write (Comment.reindent (u.levels.indentation o.unit) t')).newLine o.unit := rfl
  rw [hs, hu, ht]
  exact (h.write _).newLine o.unit

/-- A token that is neither blank nor a comment does the same to drafts that are alike, also with its
blanks collapsed. -/
lemma after (hwrap : o.maxLineLength = 0) (h : Alike s u) (hheld : u.held = s.held)
    (hcommas : ∀ c ∈ s.held, c = ',') {t v : Token} (hkind : v.kind = t.kind) (htext : v.text = t.written)
    (hb : t.kind ≠ .blank) (hc : t.kind.isComment = false) {index index' : Nat} {ts us : List Token}
    (hcomma : t.kind = .operator → t.text = [','] → 0 < s.inlineDepth ∨ s.inLimit = true)
    (hopen : t.kind = .opening →
      (InlineBlock.judge o.inlineLimit (t :: ts) = .fits ↔
        InlineBlock.judge o.inlineLimit (v :: us) = .fits) ∧
      (0 < s.inlineDepth ∨ InlineBlock.judge o.inlineLimit (t :: ts) = .fits →
        Alike s.beforeBracket u.beforeBracket)) :
    Alike (s.after o index t ts) (u.after o index' v us) := by
  have hfree : Alike { s with held := [] } { u with held := [] } :=
    ⟨h.text, h.levels, h.inlineDepth, h.inLimit, h.separated⟩
  have hsame : ∀ {s' u' : Draft} {k k' : Option Kind}, Alike s' u' →
      Alike { s' with previous := k } { u' with previous := k' } :=
    fun h => ⟨h.text, h.levels, h.inlineDepth, h.inLimit, h.separated⟩
  refine hsame ?_
  rw [placed, placed, hheld, hkind, htext, Token.written]
  cases hk : t.kind with
  | blank => exact absurd hk hb
  | unclassified => exact h
  | lineComment | blockComment => simp [hk, Kind.isComment] at hc
  | keyword role =>
    have hcollapse : Text.collapse (s.held ++ t.text) = Text.collapse (s.held ++ Text.collapse t.text) := by
      have hsolid : ∀ c ∈ s.held, Text.isBlank c = false := fun c hc => by rw [hcommas c hc]; decide
      rw [Text.collapse_append_of_solid hsolid, Text.collapse_append_of_solid hsolid,
        Text.collapse_collapse]
    have hkey := hfree.keyword hwrap role (isJoin_collapse o.dialect t.text).symm hcollapse
    exact ⟨hkey.text, hkey.levels, hkey.inlineDepth, (isLimit_collapse t.text).symm, hkey.separated⟩
  | opening =>
    obtain ⟨hfits, hkept⟩ := hopen hk
    have hheld' : ∀ s : Draft, Alike (beforeBracket { s with held := [] }) s.beforeBracket := by
      intro s
      rw [beforeBracket, beforeBracket]
      split <;> exact ⟨rfl, rfl, rfl, rfl, rfl⟩
    exact hfree.opening _ hfits fun hin => ((hheld' s).trans (hkept hin)).trans (hheld' u).symm
  | closing => exact hfree.closing _
  | placeholder =>
    have hused : Alike { s with held := [] } { u with held := [] } := hfree
    exact hused.writeSpaced _
  | operator => exact hfree.operator hwrap _ (hcomma hk)
  | word | quoted | number => exact hfree.writeWrapped hwrap _

end Alike

end Draft

end SqlLayout
