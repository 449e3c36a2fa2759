import SqlLayout.Proofs.Ink
import SqlLayout.Proofs.Runs

/-!
# The layout keeps all text

Nothing but blanks is added to the text of the tokens or taken from it. Along a run, the ink of the
page and the commas held back are together the ink of the tokens so far, in the order in which
`settle` puts them.
-/

namespace SqlLayout

def Token.isComma (t : Token) : Bool :=
  t.kind = .operator && t.text == [',']

/-- The ink of tokens, each with its contribution and the draft behind it, in the order in which it
goes to the page: a comma that is held back waits until the next token that is neither blank nor a
comment, and so stands behind the comments in between. -/
def settle (waiting : Text) : List (Token × Text × Draft) → Text
  | [] => waiting
  | (t, chunk, s) :: later =>
    if t.kind = .blank ∨ t.kind.isComment then Text.ink chunk ++ settle waiting later
    else if t.isComma ∧ s.held ≠ [] then settle (waiting ++ chunk) later
    else waiting ++ Text.ink chunk ++ settle [] later

namespace Draft

def ink (s : Draft) : Text :=
  Text.ink s.page.text

section

variable (s : Draft) (t : Text)

@[simp] lemma ink_relevel (f : Levels → Levels) : (s.relevel f).ink = s.ink := rfl

@[simp] lemma ink_note (n : Note) : (s.note n).ink = s.ink := rfl

@[simp] lemma ink_dropOverflow : s.dropOverflow.ink = s.ink := rfl

@[simp] lemma ink_indent (level : Level) : (s.indent level).ink = s.ink := rfl

@[simp] lemma ink_outdent (level : Level) : (s.outdent level).ink = s.ink := rfl

@[simp] lemma ink_trimEnd : s.trimEnd.ink = s.ink := by
  rw [ink, trimEnd, Page.text_trimEnd, Text.ink_trimEnd, ← ink]

@[simp] lemma ink_write : (s.write t).ink = s.ink ++ Text.ink t := by
  rw [ink, write, Page.text_append, Text.ink_append, ← ink]

@[simp] lemma ink_writeSpaced : (s.writeSpaced t).ink = s.ink ++ Text.ink t := by
  have hsp : Text.ink [' '] = [] := by decide
  rw [writeSpaced, ink_write, Text.ink_append, hsp, List.append_nil]

@[simp] lemma ink_writeAttached : (s.writeAttached t).ink = s.ink ++ Text.ink t := by
  rw [writeAttached, ink_writeSpaced, ink_trimEnd]

@[simp] lemma ink_writeTight : (s.writeTight t).ink = s.ink ++ Text.ink t := by
  rw [writeTight, ink_write, ink_trimEnd]

@[simp] lemma ink_separator : (s.separator t).ink = s.ink ++ Text.ink t := by
  have hn : Text.ink ['\n', '\n'] = [] := by decide
  have hp : (s.separator t).ink = Text.ink ((s.writeTight t).page.append ['\n', '\n']).text := rfl
  rw [hp, Page.text_append, Text.ink_append, hn, List.append_nil, ← ink, ink_writeTight]

end

section

variable {o : Options} (hunit : o.unit.isAllBlank = true) (s : Draft) (t : Text)
include hunit

lemma ink_newLine : (s.newLine o.unit).ink = s.ink := by
  have hends : ∀ b : Bool, Text.ink (if b then ['\n', '\n'] else ['\n']) = [] := by decide
  rw [ink, newLine, Page.text_append, Page.text_append, Page.text_trimEnd, Text.ink_append,
    Text.ink_append, Text.ink_trimEnd, hends,
    Text.ink_eq_nil (Levels.indentation_isAllBlank hunit s.levels), List.append_nil,
    List.append_nil, ← ink]

lemma ink_writeWrapped : (s.writeWrapped o t).ink = s.ink ++ Text.ink t := by
  rw [writeWrapped, ink_writeSpaced, wrapBefore]
  split
  · rw [ink_newLine hunit, ink_indent, ink_note]
  · rfl

lemma ink_lineComment :
    (s.lineComment o t).ink = s.ink ++ Text.ink (Comment.ofLine o.dialect.commentMarks t) := by
  rw [lineComment, ink_newLine hunit, ink_write, ink_dropOverflow]

lemma ink_blockComment : (s.blockComment o t).ink = s.ink ++ Text.ink t := by
  rw [blockComment, ink_newLine hunit, ink_write, ink_newLine hunit,
    Comment.ink_reindent (Levels.indentation_isAllBlank hunit _)]

lemma ink_keyword (role : Role) (own : Text) :
    (s.keyword o role own t).ink = s.ink ++ Text.ink t := by
  cases role with
  | clause => simp [keyword, clauseKeyword, ink_newLine hunit]
  | indented => simp [keyword, indentedKeyword, ink_newLine hunit]
  | breaking =>
    rw [keyword, breakingKeyword, ink_writeSpaced, ink_newLine hunit, Text.ink_collapse]
    split <;> simp
  | plain => rw [keyword, ink_writeWrapped hunit, Text.ink_collapse]

lemma ink_openBlock : (s.openBlock o t).ink = s.ink ++ Text.ink t := by
  rw [openBlock, ink_newLine hunit, ink_indent, ink_write, ink_newLine hunit]

lemma ink_opening (index : Nat) (ts : List Token) :
    (s.opening o index ts t).ink = s.ink ++ Text.ink t := by
  have htrim : (if s.dropOverflow.previous = some .blank ∨ s.dropOverflow.previous = some .opening
      then s.dropOverflow else s.dropOverflow.trimEnd).ink = s.ink := by
    split <;> simp
  rw [opening, ← htrim]
  generalize (if s.dropOverflow.previous = some .blank ∨ s.dropOverflow.previous = some .opening
      then s.dropOverflow else s.dropOverflow.trimEnd) = r
  split
  · exact ink_write _ t
  · split
    · exact ink_write _ t
    · exact ink_openBlock hunit _ t
    · exact ink_openBlock hunit _ t

lemma ink_closing : (s.closing o t).ink = s.ink ++ Text.ink t := by
  rw [closing]
  split
  · exact ink_writeAttached _ t
  · rw [ink_writeSpaced, ink_newLine hunit, ink_outdent]

lemma ink_comma : (s.comma o t).ink = if s.HoldsCommas o then s.ink else s.ink ++ Text.ink t := by
  split
  · next h =>
    rw [comma_of_holdsCommas o s t h, ink_newLine hunit]
    exact ink_trimEnd s.dropOverflow
  · next h =>
    rcases comma_of_not_holdsCommas o s t h with hc | hc
    · rw [hc, ink_writeAttached, ink_dropOverflow]
    · rw [hc, ink_newLine hunit, ink_writeTight, ink_dropOverflow]

lemma ink_operator {own : Text} (h : own ≠ [',']) :
    (s.operator o own t).ink = s.ink ++ Text.ink t := by
  rw [operator, if_neg h]
  split
  · exact ink_writeAttached s t
  · split
    · exact ink_writeTight s t
    · split
      · exact ink_separator s t
      · exact ink_writeWrapped hunit s t

end

section

variable {o : Options} (s : Draft) (index : Nat) {t : Token} (rest : List Token) {c : Text} {used : Nat}

lemma heldAfter_eq (ht : t.isSound = true) (hb : t.kind ≠ .blank) (hm : t.kind.isComment = false) :
    s.heldAfter o t = if t.isComma = true ∧ s.HoldsCommas o then s.held ++ [','] else [] := by
  cases hk : t.kind <;>
    simp_all [heldAfter, Token.isComma, Token.isSound, Kind.isComment]

lemma ink_placed (hunit : o.unit.isAllBlank = true) (ht : t.isSound = true) (hb : t.kind ≠ .blank)
    (hm : t.kind.isComment = false) (hc : t.chunk o s.used = .ok (c, used)) :
    (s.placed o index t rest c used).ink =
      if t.isComma = true ∧ s.HoldsCommas o then s.ink else s.ink ++ Text.ink (s.held ++ c) := by
  have htext : t.kind ≠ .placeholder → t.text = c := by
    intro hp
    cases hk : t.kind <;> simp_all [Token.chunk, Kind.isComment]
  have hnot : t.kind ≠ .operator → ¬(t.isComma = true ∧ s.HoldsCommas o) := by
    intro hk h
    simp [Token.isComma, hk] at h
  unfold placed
  cases hk : t.kind with
  | unclassified name => simp [Token.isSound, hk] at ht
  | blank => exact absurd hk hb
  | lineComment | blockComment => simp [hk, Kind.isComment] at hm
  | placeholder =>
    rw [if_neg (hnot (by simp [hk]))]
    exact ink_writeSpaced _ _
  | keyword role =>
    rw [if_neg (hnot (by simp [hk])), ← htext (by simp [hk])]
    exact ink_keyword hunit { s with held := [] } _ role t.text
  | opening =>
    rw [if_neg (hnot (by simp [hk])), ← htext (by simp [hk])]
    exact ink_opening hunit { s with held := [] } _ index _
  | closing =>
    rw [if_neg (hnot (by simp [hk])), ← htext (by simp [hk])]
    exact ink_closing hunit { s with held := [] } _
  | word | quoted | number =>
    rw [if_neg (hnot (by simp [hk])), ← htext (by simp [hk])]
    exact ink_writeWrapped hunit { s with held := [] } _
  | operator =>
    rw [← htext (by simp [hk])]
    by_cases hcomma : t.text = [',']
    · have hown : ∀ text, operator o { s with held := [] } t.text text = comma o { s with held := [] } text :=
        fun text => if_pos hcomma
      have hwhen : t.isComma = true ∧ s.HoldsCommas o ↔ { s with held := [] }.HoldsCommas o := by
        simp [Token.isComma, hk, hcomma, HoldsCommas]
      dsimp only
      rw [hown, ink_comma hunit]
      simp only [hwhen]
      rfl
    · rw [if_neg fun h => hcomma (by simpa [Token.isComma, hk] using h.1)]
      exact ink_operator hunit { s with held := [] } _ hcomma

end

/-- How the ink of a page and the commas held back change with a token whose contribution is
`c`. -/
def Settles (o : Options) (t : Token) (c : Text) (s s' : Draft) : Prop :=
  if t.kind = .blank ∨ t.kind.isComment then s'.ink = s.ink ++ Text.ink c ∧ s'.held = s.held
  else if t.isComma ∧ s'.held ≠ [] then
    o.commaStyle = .leading ∧ c = [','] ∧ s'.ink = s.ink ∧ s'.held = s.held ++ c
  else s'.ink = s.ink ++ Text.ink (s.held ++ c) ∧ s'.held = []

lemma placed_settles {o : Options} (hunit : o.unit.isAllBlank = true) (s : Draft) (index : Nat)
    {t : Token} (rest : List Token) {c : Text} {used : Nat} (ht : t.isSound = true)
    (hc : t.chunk o s.used = .ok (c, used)) :
    Settles o t c s (s.placed o index t rest c used) := by
  have hheld := held_placed o s index t rest c used
  rw [Settles]
  split
  · next hskip =>
    have hsame : s.heldAfter o t = s.held := by
      cases hk : t.kind <;> simp_all [heldAfter, Kind.isComment]
    refine ⟨?_, hheld.trans hsame⟩
    cases hk : t.kind <;> simp only [hk, Kind.isComment, Token.chunk, Except.ok.injEq, Prod.mk.injEq] at hskip hc
    case blank => simp [placed, hk, ← hc.1, Text.ink]
    case lineComment => simpa [placed, hk, ← hc.1] using ink_lineComment hunit s t.text
    case blockComment => simpa [placed, hk, ← hc.1] using ink_blockComment hunit s t.text
    all_goals simp at hskip
  · next hskip =>
    rw [not_or, Bool.not_eq_true] at hskip
    have hink := ink_placed s index rest hunit ht hskip.1 hskip.2 hc
    rw [heldAfter_eq s ht hskip.1 hskip.2] at hheld
    by_cases hholds : t.isComma = true ∧ s.HoldsCommas o
    · have htext : t.kind = .operator ∧ t.text = [','] := by simpa [Token.isComma] using hholds.1
      have hcomma : c = [','] := by
        simp only [Token.chunk, htext.1, htext.2, Except.ok.injEq, Prod.mk.injEq] at hc
        exact hc.1.symm
      rw [if_pos hholds] at hink hheld
      rw [if_pos ⟨hholds.1, by simp [hheld]⟩]
      exact ⟨hholds.2.1, hcomma, hink, by rw [hheld, hcomma]⟩
    · rw [if_neg hholds] at hink hheld
      rw [if_neg (by simp [hheld])]
      exact ⟨hink, hheld⟩

lemma Settles.settle_cons {o : Options} {t : Token} {c : Text} {s s' : Draft}
    (h : Settles o t c s s') (hheld : Text.ink s.held = s.held)
    (later : List (Token × Text × Draft)) :
    s.ink ++ settle s.held ((t, c, s') :: later) = s'.ink ++ settle s'.held later := by
  rw [Settles] at h
  rw [settle]
  split at h
  · next hb =>
    obtain ⟨hi, hh⟩ := h
    rw [if_pos hb, hi, hh, List.append_assoc]
  · next hb =>
    rw [if_neg hb]
    split at h
    · next hcomma =>
      obtain ⟨-, -, hi, hh⟩ := h
      rw [if_pos hcomma, hi, hh]
    · next hcomma =>
      obtain ⟨hi, hh⟩ := h
      rw [if_neg hcomma, hi, hh, Text.ink_append, hheld]
      simp

lemma Settles.held_commas {o : Options} {t : Token} {c : Text} {s s' : Draft}
    (h : Settles o t c s s') (hheld : ∀ x ∈ s.held, x = ',') : ∀ x ∈ s'.held, x = ',' := by
  rw [Settles] at h
  split at h
  · rwa [h.2]
  · split at h
    · obtain ⟨-, hc, -, hh⟩ := h
      simpa [hh, hc, or_imp, forall_and] using hheld
    · simp [h.2]

lemma Settles.held_trailing {o : Options} {t : Token} {c : Text} {s s' : Draft}
    (h : Settles o t c s s') (hstyle : o.commaStyle = .trailing) (hheld : s.held = []) :
    s'.held = [] := by
  rw [Settles] at h
  split at h
  · rw [h.2, hheld]
  · split at h
    · simp [hstyle] at h
    · exact h.2

lemma ink_commas {t : Text} (h : ∀ x ∈ t, x = ',') : Text.ink t = t := by
  rw [Text.ink, List.filter_eq_self]
  intro x hx
  rw [h x hx]
  decide

/-- Along a run nothing stops, ink and held commas stay in balance with the tokens behind. -/
lemma steps_settle {o : Options} (hunit : o.unit.isAllBlank = true) {ts : List Token}
    (hts : ∀ t ∈ ts, t.isSound = true) (s : Draft) (index : Nat) {cs : List Text}
    (hcs : chunks o s.used ts = .ok cs) (hheld : ∀ x ∈ s.held, x = ',') :
    ∃ drafts, s.steps o index ts = (drafts, none) ∧ drafts.length = ts.length ∧
      cs.length = ts.length ∧
      (∀ k d, drafts[k]? = some d → (∀ x ∈ d.held, x = ',') ∧
        d.ink ++ d.held = s.ink ++ settle s.held ((ts.zip (cs.zip drafts)).take (k + 1))) ∧
      (o.commaStyle = .trailing → s.held = [] → ∀ d ∈ drafts, d.held = []) := by
  induction ts generalizing s index cs with
  | nil =>
    obtain rfl : [] = cs := by simpa [chunks] using hcs
    exact ⟨[], rfl, rfl, rfl, by simp, by simp⟩
  | cons t ts ih =>
    obtain ⟨c, used, cs, hc, hcs', rfl⟩ := chunks_cons hcs
    have ht := hts t List.mem_cons_self
    have hstep := step_eq_ok ht hc index ts
    have hu := used_placed hc index ts
    have hset := placed_settles hunit s index ts ht hc
    generalize hs' : ({ s.placed o index t ts c used with previous := some t.kind } : Draft) = s'
      at hstep
    have hset' : Settles o t c s s' := hs' ▸ hset
    have hu' : s'.used = used := hs' ▸ hu
    have hheld' := hset'.held_commas hheld
    obtain ⟨drafts, hsteps, hlen, hlen', hbal, htrail⟩ := ih
      (fun u hm => hts u (List.mem_cons_of_mem t hm)) s' (index + 1) (hu' ▸ hcs') hheld'
    refine ⟨s' :: drafts, by rw [steps_cons_ok hstep, hsteps], by simp [hlen], by simp [hlen'],
      ?_, ?_⟩
    · intro k d hd
      rw [List.zip_cons_cons, List.zip_cons_cons, List.take_succ_cons,
        hset'.settle_cons (ink_commas hheld)]
      cases k with
      | zero =>
        obtain rfl : s' = d := by simpa using hd
        exact ⟨hheld', by simp [settle]⟩
      | succ k => exact hbal k d (by simpa using hd)
    · intro hstyle hempty d hd
      have hempty' := hset'.held_trailing hstyle hempty
      rcases List.mem_cons.mp hd with rfl | hm
      · exact hempty'
      · exact htrail hstyle hempty' d hm

end Draft

lemma settle_eq_flatMap {entries : List (Token × Text × Draft)}
    (h : ∀ e ∈ entries, e.2.2.held = []) :
    settle [] entries = entries.flatMap fun e => Text.ink e.2.1 := by
  induction entries with
  | nil => rfl
  | cons e es ih =>
    obtain ⟨t, c, s⟩ := e
    have hs : s.held = [] := h (t, c, s) List.mem_cons_self
    rw [settle, List.flatMap_cons, ← ih fun e he => h e (List.mem_cons_of_mem _ he)]
    split
    · rfl
    · simp [hs]

/-- After every token of a sequence that a query can hold, the ink of the page and the commas held
back are the ink of the tokens so far, commas held back standing behind the comments that follow
them; so with trailing commas the ink of the finished layout is the ink of the tokens in order. -/
theorem layout_conserves_text (o : Options) (hunit : o.unit.isAllBlank = true) (ts : List Token)
    (hts : ∀ t ∈ ts, t.isSound = true) (cs : List Text) (hcs : chunks o 0 ts = .ok cs) :
    ∃ drafts, Draft.steps o {} 0 ts = (drafts, none) ∧ drafts.length = ts.length ∧
      (∀ k s, drafts[k]? = some s → (∀ x ∈ s.held, x = ',') ∧
        Text.ink s.page.text ++ s.held = settle [] ((ts.zip (cs.zip drafts)).take (k + 1))) ∧
      (∃ text, layout o ts = .ok text ∧
        Text.ink text ++ (drafts.getLastD {}).held = settle [] (ts.zip (cs.zip drafts))) ∧
      (o.commaStyle = .trailing → (∀ s ∈ drafts, s.held = []) ∧
        ∃ text, layout o ts = .ok text ∧ Text.ink text = cs.flatMap Text.ink) := by
  obtain ⟨drafts, hsteps, hlen, hlen', hbal, htrail⟩ :=
    Draft.steps_settle hunit hts {} 0 hcs (by simp)
  have hzip : (ts.zip (cs.zip drafts)).length = ts.length := by simp [hlen, hlen']
  have hlast : Text.ink (drafts.getLastD {}).text ++ (drafts.getLastD {}).held =
      settle [] (ts.zip (cs.zip drafts)) := by
    rw [Draft.text, Text.ink_trim]
    cases hd : drafts.getLast? with
    | none =>
      rw [List.getLast?_eq_none_iff] at hd
      subst hd
      simp [settle, Page.empty, Page.text]
    | some d =>
      have hpos : 0 < drafts.length := by
        cases drafts with
        | nil => simp at hd
        | cons => simp
      have hk := (hbal (drafts.length - 1) d (by rw [← List.getLast?_eq_getElem?, hd])).2
      rw [List.take_of_length_le (by omega)] at hk
      simpa [List.getLastD_eq_getLast?, hd, Draft.ink, Page.empty, Page.text] using hk
  refine ⟨drafts, hsteps, hlen, hbal, ⟨_, layout_eq_ok hsteps, hlast⟩, fun hstyle => ?_⟩
  have hempty := htrail hstyle rfl
  have hheld : (drafts.getLastD {}).held = [] := by
    cases hd : drafts.getLast? with
    | none => simp [List.getLastD_eq_getLast?, hd]
    | some d => simpa [List.getLastD_eq_getLast?, hd] using hempty d (List.mem_of_getLast? hd)
  have hchunks : (ts.zip (cs.zip drafts)).map (fun e => e.2.1) = cs := by
    have hsnd : (ts.zip (cs.zip drafts)).map Prod.snd = cs.zip drafts :=
      List.map_snd_zip (by simp [hlen, hlen'])
    have hcomp : (fun e : Token × Text × Draft => e.2.1) = Prod.fst ∘ Prod.snd := rfl
    rw [hcomp, ← List.map_map, hsnd, List.map_fst_zip (by omega)]
  refine ⟨hempty, _, layout_eq_ok hsteps, ?_⟩
  have hsettled : settle [] (ts.zip (cs.zip drafts)) =
      (ts.zip (cs.zip drafts)).flatMap fun e => Text.ink e.2.1 :=
    settle_eq_flatMap fun e he => hempty _ (List.of_mem_zip (List.of_mem_zip he).2).2
  rw [hheld, List.append_nil, hsettled] at hlast
  calc Text.ink (drafts.getLastD {}).text
      = (ts.zip (cs.zip drafts)).flatMap (fun e => Text.ink e.2.1) := hlast
    _ = ((ts.zip (cs.zip drafts)).map fun e => e.2.1).flatMap Text.ink := by rw [List.flatMap_map]
    _ = cs.flatMap Text.ink := by rw [hchunks]

/-- A list of two names with a remark behind its comma. -/
def remarkedList : List Token :=
  [{ kind := .word, text := ['a'] }, { kind := .operator, text := [','] },
    { kind := .lineComment, text := "-- */\n".toList }, { kind := .blank, text := [' '] },
    { kind := .word, text := ['b'] }]

theorem layout_conserves_text_remarkedList :
    (∀ t ∈ remarkedList, t.isSound = true) ∧
    ∃ text, layout { commaStyle := .trailing } remarkedList = .ok text ∧
      Text.ink text = "a,/**/*/b".toList := by
  have hsound : ∀ t ∈ remarkedList, t.isSound = true := by decide
  have hchunks : chunks { commaStyle := .trailing } 0 remarkedList =
      .ok [['a'], [','], "/* * / */".toList, [], ['b']] := by rfl
  obtain ⟨drafts, -, -, -, -, htrailing⟩ := layout_conserves_text { commaStyle := .trailing }
    (by decide) remarkedList hsound _ hchunks
  obtain ⟨text, hlayout, hink⟩ := (htrailing rfl).2
  exact ⟨hsound, text, hlayout, hink.trans (by decide)⟩

end SqlLayout
