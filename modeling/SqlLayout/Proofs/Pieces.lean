import SqlLayout.Proofs.Comments
import SqlLayout.Proofs.Conservation

/-!
# The pieces of a page

A page is a sequence of pieces: the text of a token with the blanks in front of it. Two pieces touch
only behind a dot, a comma or an opening bracket, or in front of a sign or a bracket.
-/

namespace SqlLayout

/-- What one token puts on a page, and the blanks in front of it. -/
structure Piece where
  gap : Text
  kind : Kind
  text : Text
deriving DecidableEq

def joined (ps : List Piece) : Text :=
  ps.flatMap fun p => p.gap ++ p.text

@[simp] lemma joined_nil : joined [] = [] := rfl

@[simp] lemma joined_cons (p : Piece) (ps : List Piece) :
    joined (p :: ps) = p.gap ++ (p.text ++ joined ps) := by
  simp [joined]

namespace Text

/-- A text begins and ends with ink. -/
structure Solid (t : Text) : Prop where
  ne_nil : t ≠ []
  head : t.startsBlank = false
  last : t.trimEnd = t

lemma trimEnd_eq_nil {t : Text} (h : t.isAllBlank = true) : trimEnd t = [] := by
  have hrev : ∀ c ∈ t.reverse, isBlank c = true := by simpa [isAllBlank] using h
  have hdrop : (t.reverse ++ []).dropWhile isBlank = [].dropWhile isBlank :=
    List.dropWhile_append_of_pos hrev
  rw [List.append_nil] at hdrop
  rw [trimEnd, dropEndWhile, hdrop]
  rfl

lemma trimEnd_ne_nil {t : Text} (hb : t.startsBlank = false) (ht : t ≠ []) : trimEnd t ≠ [] := by
  intro hnil
  obtain ⟨b, hblank, heq⟩ := exists_trimEnd_append t
  rw [hnil, List.nil_append] at heq
  subst heq
  obtain ⟨c, r, rfl⟩ := List.exists_cons_of_ne_nil ht
  have hc : isBlank c = false := hb
  simp [isAllBlank, hc] at hblank

lemma trimEnd_append_blank {a b : Text} (h : b.isAllBlank = true) :
    trimEnd (a ++ b) = trimEnd a :=
  trimEnd_append_of_trimEnd_eq_nil (trimEnd_eq_nil h)

lemma trimEnd_trimEnd (t : Text) : trimEnd (trimEnd t) = trimEnd t := by
  obtain ⟨b, hb, ht⟩ := exists_trimEnd_append t
  have htrim := trimEnd_append_blank (a := trimEnd t) hb
  rwa [← ht, eq_comm] at htrim

lemma trimEnd_append_solid {a t : Text} (h : t.Solid) : trimEnd (a ++ t) = a ++ t := by
  rw [trimEnd_append_of_trimEnd_ne_nil (by rw [h.last]; exact h.ne_nil), h.last]

lemma Solid.of_concat {c d : Char} {t : Text} (hc : isBlank c = false) (hd : isBlank d = false) :
    Solid (c :: (t ++ [d])) where
  ne_nil := by simp
  head := hc
  last := by simp [trimEnd, dropEndWhile, hd]

lemma Solid.exists_concat {t : Text} (h : t.Solid) :
    ∃ u c, t = u ++ [c] ∧ isBlank c = false := by
  refine ⟨t.dropLast, t.getLast h.ne_nil, (List.dropLast_concat_getLast h.ne_nil).symm, ?_⟩
  cases hc : isBlank (t.getLast h.ne_nil) with
  | false => rfl
  | true =>
    have hlast := h.last
    rw [← List.dropLast_concat_getLast h.ne_nil, trimEnd_append_blank (by simp [isAllBlank, hc])] at hlast
    have hlen := congrArg List.length hlast
    obtain ⟨b, -, hb⟩ := exists_trimEnd_append t.dropLast
    have hle := congrArg List.length hb
    simp only [List.length_append, List.length_cons, List.length_nil] at hlen hle
    omega

lemma Solid.collapse {t : Text} (h : t.Solid) : (Text.collapse t).Solid := by
  obtain ⟨u, c, rfl, hc⟩ := h.exists_concat
  have hne : Text.collapse (u ++ [c]) ≠ [] := by rw [collapse_concat hc]; simp
  refine ⟨hne, by rw [startsBlank_collapse, h.head], ?_⟩
  rw [collapse_concat hc]
  simp [trimEnd, dropEndWhile, hc]

lemma Solid.commas_append {t held : Text} (h : t.Solid) (hc : ∀ c ∈ held, c = ',') :
    (held ++ t).Solid := by
  refine ⟨by simp [h.ne_nil], ?_, trimEnd_append_solid h⟩
  cases held with
  | nil => exact h.head
  | cons c cs =>
    rw [hc c (by simp)]
    exact (by decide : isBlank ',' = false)

end Text

lemma IsBlockComment.solid {x : Text} (h : IsBlockComment x) : x.Solid := by
  obtain ⟨body, rfl, -⟩ := h
  simpa using Text.Solid.of_concat (c := '/') (d := '/') (t := '*' :: (body ++ ['*'])) (by decide)
    (by decide)

lemma IsBlockComment.isClosed {x : Text} (h : IsBlockComment x) : Comment.isClosed x = true := by
  obtain ⟨body, rfl, -⟩ := h
  have hsuffix : ['*', '/'] <:+ '/' :: '*' :: (body ++ ['*', '/']) := ⟨'/' :: '*' :: body, by simp⟩
  simpa [Comment.isClosed] using hsuffix

namespace Draft

/-- The page of a draft without the blanks at its end. -/
def body (s : Draft) : Text :=
  Text.trimEnd s.page.text

/-- The blanks at the end of the page of a draft. -/
def tail (s : Draft) : Text :=
  s.page.text.drop s.body.length

lemma body_append_tail (s : Draft) : s.body ++ s.tail = s.page.text := by
  obtain ⟨b, -, hb⟩ := Text.exists_trimEnd_append s.page.text
  rw [tail, body]
  generalize Text.trimEnd s.page.text = a at hb ⊢
  rw [hb, List.drop_left]

lemma isAllBlank_tail (s : Draft) : s.tail.isAllBlank = true := by
  obtain ⟨b, hb, htext⟩ := Text.exists_trimEnd_append s.page.text
  have heq : s.body ++ s.tail = s.body ++ b := (body_append_tail s).trans htext
  rw [List.append_cancel_left heq]
  exact hb

lemma body_tail_of_text {s : Draft} {b g : Text} (h : s.page.text = b ++ g)
    (hb : Text.trimEnd b = b) (hg : g.isAllBlank = true) : s.body = b ∧ s.tail = g := by
  have hbody : s.body = b := by rw [body, h, Text.trimEnd_append_blank hg, hb]
  refine ⟨hbody, ?_⟩
  rw [tail, hbody, h, List.drop_left]

lemma trimEnd_body (s : Draft) : Text.trimEnd s.body = s.body :=
  Text.trimEnd_trimEnd _

lemma body_trimEnd (s : Draft) : s.trimEnd.body = s.body := by
  rw [body, trimEnd, Page.text_trimEnd]
  exact trimEnd_body s

lemma tail_trimEnd (s : Draft) : s.trimEnd.tail = [] := by
  rw [tail, body_trimEnd, trimEnd, Page.text_trimEnd, body, List.drop_length]

section

variable {o : Options} (hunit : o.unit.isAllBlank = true) (s : Draft) {t : Text}

lemma text_newLine (s : Draft) (unit : Text) : (s.newLine unit).page.text = s.body ++
    ((if s.separated then ['\n', '\n'] else ['\n']) ++ s.levels.indentation unit) := by
  rw [newLine]
  simp only [Page.text_append, Page.text_trimEnd, List.append_assoc]
  rfl

include hunit in
lemma body_tail_newLine : (s.newLine o.unit).body = s.body ∧ (s.newLine o.unit).tail ≠ [] := by
  have hends : Text.isAllBlank (if s.separated then ['\n', '\n'] else ['\n']) = true := by
    split <;> decide
  have h := body_tail_of_text (text_newLine s o.unit) (trimEnd_body s)
    (Text.isAllBlank_append.mpr ⟨hends, Levels.indentation_isAllBlank hunit _⟩)
  refine ⟨h.1, ?_⟩
  rw [h.2]
  split <;> simp

lemma body_tail_write (ht : t.Solid) {g : Text} (hg : g.isAllBlank = true) :
    (s.write (t ++ g)).body = s.body ++ (s.tail ++ t) ∧ (s.write (t ++ g)).tail = g := by
  refine body_tail_of_text ?_ ?_ hg
  · rw [write, Page.text_append, ← body_append_tail]
    simp
  · rw [← List.append_assoc, Text.trimEnd_append_solid ht]

end

/-- A draft goes on from another one with a text: it stands directly behind what comes before only
if it clings to it or if nothing was left in between, and something can stand directly behind it only
if it is loose. -/
structure Sets (s s' : Draft) (t gap : Text) (clings loose : Prop) : Prop where
  body : s'.body = s.body ++ (gap ++ t)
  blank : gap.isAllBlank = true
  clings : gap = [] → clings ∨ s.tail = []
  loose : s'.tail = [] → loose

section

variable {o : Options} (hunit : o.unit.isAllBlank = true) (s : Draft) {t : Text}

lemma Sets.mono {s s' : Draft} {t gap : Text} {a b a' b' : Prop} (h : Sets s s' t gap a b)
    (ha : a → a') (hb : b → b') : Sets s s' t gap a' b' :=
  ⟨h.body, h.blank, fun hg => (h.clings hg).imp_left ha, fun hs => hb (h.loose hs)⟩

lemma Sets.of_same {s s₁ s' : Draft} {t gap : Text} {a b : Prop} (hbody : s₁.body = s.body)
    (htail : s₁.tail = [] → a ∨ s.tail = []) (h : Sets s₁ s' t gap a b) : Sets s s' t gap a b :=
  ⟨hbody ▸ h.body, h.blank, fun hg => (h.clings hg).elim .inl htail, h.loose⟩

lemma body_tail_of_page {s s' : Draft} (h : s.page = s'.page) : s.body = s'.body ∧ s.tail = s'.tail := by
  rw [tail, body, tail, body, h]
  exact ⟨rfl, rfl⟩

lemma Sets.of_page {s s₁ s' : Draft} {t gap : Text} {a b : Prop} (h : Sets s₁ s' t gap a b)
    (hp : s₁.page = s.page) : Sets s s' t gap a b := by
  obtain ⟨hbody, htail⟩ := body_tail_of_page hp
  exact h.of_same hbody fun hnil => .inr (htail ▸ hnil)

lemma Sets.to_page {s s' u : Draft} {t gap : Text} {a b : Prop} (h : Sets s s' t gap a b)
    (hp : s'.page = u.page) : Sets s u t gap a b := by
  obtain ⟨hbody, htail⟩ := body_tail_of_page hp
  exact ⟨hbody ▸ h.body, h.blank, h.clings, htail ▸ h.loose⟩

include hunit in
lemma Sets.newLine {s s' : Draft} {t gap : Text} {a b : Prop} (h : Sets s s' t gap a b) :
    Sets s (s'.newLine o.unit) t gap a False := by
  obtain ⟨hbody, htail⟩ := body_tail_newLine hunit s'
  exact ⟨hbody.trans h.body, h.blank, h.clings, htail⟩

include hunit in
lemma Sets.after_newLine {s s' : Draft} {t gap : Text} {a b : Prop}
    (h : Sets (s.newLine o.unit) s' t gap a b) : Sets s s' t gap a b := by
  obtain ⟨hbody, htail⟩ := body_tail_newLine hunit s
  exact h.of_same hbody fun hnil => absurd hnil htail

lemma sets_write (ht : t.Solid) : Sets s (s.write t) t s.tail False True := by
  obtain ⟨hbody, -⟩ := body_tail_write s ht (g := []) rfl
  rw [List.append_nil] at hbody
  exact ⟨hbody, isAllBlank_tail s, .inr, fun _ => trivial⟩

lemma sets_writeSpaced (ht : t.Solid) : Sets s (s.writeSpaced t) t s.tail False False := by
  obtain ⟨hbody, htail⟩ := body_tail_write s ht (g := [' ']) (by decide)
  exact ⟨hbody, isAllBlank_tail s, .inr, by simp [writeSpaced, htail]⟩

lemma sets_writeTight (ht : t.Solid) : Sets s (s.writeTight t) t s.trimEnd.tail True True :=
  ((sets_write s.trimEnd ht).mono (fun _ => trivial) id).of_same (body_trimEnd s) fun _ => .inl trivial

lemma sets_writeAttached (ht : t.Solid) :
    Sets s (s.writeAttached t) t s.trimEnd.tail True False :=
  ((sets_writeSpaced s.trimEnd ht).mono (fun _ => trivial) id).of_same (body_trimEnd s)
    fun _ => .inl trivial

lemma sets_separator (ht : t.Solid) : Sets s (s.separator t) t s.trimEnd.tail True False := by
  have htext : (s.separator t).page.text = s.body ++ (s.trimEnd.tail ++ t) ++ ['\n', '\n'] := by
    have hwrite : (s.separator t).page.text = (s.writeTight t).page.text ++ ['\n', '\n'] :=
      Page.text_append _ _
    have hbody := (body_tail_write s.trimEnd ht (g := []) rfl)
    rw [List.append_nil] at hbody
    rw [hwrite, ← body_append_tail, writeTight, hbody.1, hbody.2, body_trimEnd, List.append_nil]
  obtain ⟨hbody, htail⟩ := body_tail_of_text htext
    (by rw [← List.append_assoc, Text.trimEnd_append_solid ht]) (by decide)
  exact ⟨hbody, isAllBlank_tail _, fun _ => .inl trivial, by simp [htail]⟩

include hunit

lemma sets_writeWrapped (ht : t.Solid) :
    ∃ gap, Sets s (s.writeWrapped o t) t gap False False := by
  rw [writeWrapped, wrapBefore]
  split
  · let s₁ := (s.note (.wrapped o.maxLineLength t)).indent .overflow
    exact ⟨_, ((sets_writeSpaced (s₁.newLine o.unit) ht).after_newLine hunit).of_page rfl⟩
  · exact ⟨_, sets_writeSpaced s ht⟩

lemma sets_lineComment (ht : (Comment.ofLine o.dialect.commentMarks t).Solid) :
    ∃ gap, Sets s (s.lineComment o t) (Comment.ofLine o.dialect.commentMarks t) gap False False :=
  ⟨_, ((sets_write s.dropOverflow ht).newLine hunit).of_page rfl⟩

lemma sets_blockComment (ht : (Comment.reindent (s.levels.indentation o.unit) t).Solid) :
    ∃ gap, Sets s (s.blockComment o t) (Comment.reindent (s.levels.indentation o.unit) t) gap
      False False :=
  ⟨_, ((sets_write (s.newLine o.unit) ht).after_newLine hunit).newLine hunit⟩

lemma sets_keyword (role : Role) {own : Text} (ht : (Text.collapse t).Solid) :
    ∃ gap, Sets s (s.keyword o role own t) (Text.collapse t) gap False False := by
  cases role with
  | clause =>
    let s₁ := (s.dropOverflow.outdent .continuation).outdent .clause
    have hwrite := (sets_write ((s₁.newLine o.unit).indent .clause) ht).newLine hunit
    exact ⟨_, ((hwrite.of_page (s := s₁.newLine o.unit) rfl).after_newLine hunit).of_page rfl⟩
  | indented =>
    let s₁ := s.dropOverflow.indent .continuation
    exact ⟨_, ((sets_writeSpaced (s₁.newLine o.unit) ht).after_newLine hunit).of_page rfl⟩
  | breaking =>
    let s₁ := if isJoin o.dialect own then s.dropOverflow.outdent .continuation else s.dropOverflow
    have hp : s₁.page = s.page := by
      simp only [s₁]
      split <;> rfl
    exact ⟨_, ((sets_writeSpaced (s₁.newLine o.unit) ht).after_newLine hunit).of_page hp⟩
  | plain => exact sets_writeWrapped hunit s ht

lemma sets_openBlock (ht : t.Solid) : ∃ gap, Sets s (s.openBlock o t) t gap False False := by
  have hwrite := (sets_write (s.newLine o.unit) ht).after_newLine hunit
  exact ⟨_, (hwrite.to_page (u := ((s.newLine o.unit).write t).indent .block) rfl).newLine hunit⟩

lemma sets_opening (index : Nat) (ts : List Token) (ht : t.Solid) :
    ∃ gap, Sets s (s.opening o index ts t) t gap True True := by
  have hfrom : ∀ {s₁ s' : Draft} {gap : Text} {a b : Prop},
      s₁.page = s.page ∨ s₁.page = s.page.trimEnd → Sets s₁ s' t gap a b →
      Sets s s' t gap True True := by
    rintro s₁ s' gap a b hp h
    have h' : Sets s₁ s' t gap True True := h.mono (fun _ => trivial) fun _ => trivial
    rcases hp with hp | hp
    · exact h'.of_page hp
    · exact (h'.of_page (s := s.trimEnd) hp).of_same (body_trimEnd s) fun _ => .inl trivial
  rw [opening]
  generalize hs₁ : (if s.dropOverflow.previous = some .blank ∨ s.dropOverflow.previous = some .opening
    then s.dropOverflow else s.dropOverflow.trimEnd) = s₁
  have hp : s₁.page = s.page ∨ s₁.page = s.page.trimEnd := by
    rw [← hs₁]
    split
    · exact .inl rfl
    · exact .inr rfl
  split
  · exact ⟨_, hfrom hp ((sets_write _ ht).of_page rfl)⟩
  · split
    · exact ⟨_, hfrom hp ((sets_write _ ht).of_page rfl)⟩
    · obtain ⟨gap, h⟩ := sets_openBlock hunit s₁ ht
      exact ⟨gap, hfrom hp h⟩
    · have hp' : (s₁.note (.unclosedBracket index)).page = s.page ∨
          (s₁.note (.unclosedBracket index)).page = s.page.trimEnd := hp
      obtain ⟨gap, h⟩ := sets_openBlock hunit (s₁.note (.unclosedBracket index)) ht
      exact ⟨gap, hfrom hp' h⟩

lemma sets_closing (ht : t.Solid) : ∃ gap, Sets s (s.closing o t) t gap True False := by
  rw [closing]
  split
  · exact ⟨_, (sets_writeAttached _ ht).of_page rfl⟩
  · have hwrite := (sets_writeSpaced ((s.outdent .block).newLine o.unit) ht).after_newLine hunit
    exact ⟨_, (hwrite.of_page (s := s) rfl).mono False.elim id⟩

lemma sets_comma (h : ¬s.HoldsCommas o) (ht : t.Solid) :
    ∃ gap, Sets s (s.comma o t) t gap True False := by
  rcases comma_of_not_holdsCommas o s t h with hc | hc
  · rw [hc]
    exact ⟨_, (sets_writeAttached s.dropOverflow ht).of_page rfl⟩
  · rw [hc]
    exact ⟨_, ((sets_writeTight s.dropOverflow ht).newLine hunit).of_page rfl⟩

lemma body_tail_comma (h : s.HoldsCommas o) :
    (s.comma o t).body = s.body ∧ (s.comma o t).tail ≠ [] := by
  rw [comma_of_holdsCommas o s t h]
  obtain ⟨hbody, htail⟩ := body_tail_newLine hunit { s.dropOverflow.trimEnd with held := t }
  exact ⟨hbody.trans (body_trimEnd s), htail⟩

lemma sets_operator {own : Text} (hown : own ≠ [',']) (ht : t.Solid) :
    ∃ gap, Sets s (s.operator o own t) t gap (own ∈ [['.'], [':'], [';']]) (own = ['.']) := by
  rw [operator, if_neg hown]
  split
  · next h => exact ⟨_, (sets_writeAttached s ht).mono (by simp [h]) False.elim⟩
  · split
    · next h => exact ⟨_, (sets_writeTight s ht).mono (by simp [h]) fun _ => h⟩
    · split
      · next h => exact ⟨_, (sets_separator s ht).mono (by simp [h]) False.elim⟩
      · obtain ⟨gap, h⟩ := sets_writeWrapped hunit s ht
        exact ⟨gap, h.mono False.elim False.elim⟩

end

end Draft

/-! ### Steps -/

/-- Whether a piece may stand directly behind any other one. -/
def Piece.Clings (p : Piece) : Prop :=
  p.text ∈ [[','], ['.'], [':'], [';']] ∨ p.kind = .opening ∨ p.kind = .closing

/-- Whether any other piece may stand directly behind this one. -/
def Piece.Loose (p : Piece) : Prop :=
  p.text ∈ [[','], ['.']] ∨ p.kind = .opening

/-- A token that has a solid text unless it is blank, and that is closed if it is a block comment. -/
def Token.Proper (t : Token) : Prop :=
  match t.kind with
  | .unclassified _ => False
  | .blank | .lineComment => True
  | .blockComment => IsBlockComment t.text
  | _ => t.text.Solid

/-- The text of a token that is no comment as it goes to a page. -/
def Token.written (t : Token) : Text :=
  match t.kind with
  | .keyword _ => Text.collapse t.text
  | _ => t.text

namespace Draft

/-- The text of a token as it goes to the page. -/
def shown (o : Options) (s : Draft) (t : Token) : Text :=
  match t.kind with
  | .lineComment => Comment.ofLine o.dialect.commentMarks t.text
  | .blockComment => Comment.reindent (s.levels.indentation o.unit) t.text
  | _ => t.written

/-- The blanks between the text of a draft and what another draft adds to it. -/
def gapTo (s s' : Draft) : Text :=
  (s'.page.text.drop s.body.length).takeWhile Text.isBlank

/-- What a token can do to the page and to the commas held back. -/
inductive Places (o : Options) (s : Draft) (t : Token) (s' : Draft) : Prop
  | blank : t.kind = .blank → s'.page = s.page → s'.held = s.held → Places o s t s'
  | hold : t.kind = .operator → t.text = [','] → s'.body = s.body → s'.tail ≠ [] →
      s'.held = s.held ++ [','] → Places o s t s'
  | comment (gap : Text) : t.kind.isComment = true → IsBlockComment (s.shown o t) →
      Sets s s' (s.shown o t) gap False False → s'.held = s.held → Places o s t s'
  | set (gap : Text) : t.kind ≠ .blank → t.kind.isComment = false → (s.shown o t).Solid →
      Sets s s' (s.held ++ s.shown o t) gap (Piece.Clings ⟨gap, t.kind, s.shown o t⟩)
        (Piece.Loose ⟨gap, t.kind, s.shown o t⟩) →
      s'.held = [] → Places o s t s'

lemma Places.held_commas {o : Options} {s s' : Draft} {t : Token} (h : Places o s t s')
    (hheld : ∀ c ∈ s.held, c = ',') : ∀ c ∈ s'.held, c = ',' := by
  cases h with
  | blank _ _ hh | comment _ _ _ _ hh => rwa [hh]
  | hold _ _ _ _ hh => simpa [hh, or_imp, forall_and] using hheld
  | set _ _ _ _ _ hh => simp [hh]

section

variable {o : Options} {s : Draft} {t : Token}

lemma isBlockComment_shown (hunit : o.unit.isAllBlank = true) (ht : t.Proper)
    (hc : t.kind.isComment = true) : IsBlockComment (s.shown o t) := by
  rw [shown]
  cases hk : t.kind <;> simp only [hk, Kind.isComment, Token.Proper] at hc ht ⊢
  case lineComment => exact Comment.isBlockComment_ofLine _ _
  case blockComment =>
    exact Comment.isBlockComment_reindent (Levels.indentation_isAllBlank hunit _) ht
  all_goals simp at hc

lemma shown_eq_written (hc : t.kind.isComment = false) : s.shown o t = t.written := by
  rw [shown]
  cases hk : t.kind <;> simp_all [Kind.isComment]

lemma solid_shown (ht : t.Proper) (hb : t.kind ≠ .blank) (hc : t.kind.isComment = false) :
    (s.shown o t).Solid := by
  rw [shown_eq_written hc, Token.written]
  cases hk : t.kind <;> simp_all [Kind.isComment, Token.Proper]
  exact ht.collapse

end

/-- The draft that a token leaves behind where no values are bound. -/
def after (o : Options) (s : Draft) (index : Nat) (t : Token) (rest : List Token) : Draft :=
  { s.placed o index t rest t.text s.used with previous := some t.kind }

lemma step_eq_after {o : Options} {s : Draft} {t : Token} (hbind : o.bindings = .none)
    (ht : t.Proper) (index : Nat) (rest : List Token) :
    s.step o index t rest = .ok (s.after o index t rest) := by
  rw [step, place, after, placed]
  cases hk : t.kind <;> simp_all [Token.Proper, IsBlockComment.isClosed, Bindings.resolve]

lemma held_after (o : Options) (s : Draft) (index : Nat) (t : Token) (rest : List Token) :
    (s.after o index t rest).held = s.heldAfter o t :=
  held_placed o s index t rest t.text s.used

lemma Places.of_sets {o : Options} {s s₁ s' : Draft} {t : Token} {w : Text} {a b : Prop} (ht : t.Proper)
    (hheld : ∀ c ∈ s.held, c = ',') (hb : t.kind ≠ .blank) (hc : t.kind.isComment = false)
    (hw : s.shown o t = w) (hp : s'.page = s₁.page) (hh : s'.held = [])
    (hs : (s.held ++ w).Solid → ∃ gap, Sets { s with held := [] } s₁ (s.held ++ w) gap a b)
    (ha : a → ∀ gap, Piece.Clings ⟨gap, t.kind, w⟩) (hl : b → ∀ gap, Piece.Loose ⟨gap, t.kind, w⟩) :
    Places o s t s' := by
  subst hw
  have hsolid := solid_shown (s := s) (o := o) ht hb hc
  obtain ⟨gap, h⟩ := hs (hsolid.commas_append hheld)
  have hset : Sets s s' (s.held ++ s.shown o t) gap a b := (h.of_page (s := s) rfl).to_page hp.symm
  exact .set gap hb hc hsolid (hset.mono (fun h => ha h gap) fun h => hl h gap) hh

lemma Places.of_comment {o : Options} (hunit : o.unit.isAllBlank = true) {s s₁ s' : Draft} {t : Token}
    (ht : t.Proper) (hc : t.kind.isComment = true) (hp : s'.page = s₁.page) (hh : s'.held = s.held)
    (hs : (s.shown o t).Solid → ∃ gap, Sets s s₁ (s.shown o t) gap False False) : Places o s t s' := by
  have hblock := isBlockComment_shown (s := s) hunit ht hc
  obtain ⟨gap, h⟩ := hs hblock.solid
  exact .comment gap hc hblock (h.to_page hp.symm) hh

/-- Every token does one of four things to a page. -/
lemma places_after {o : Options} (hunit : o.unit.isAllBlank = true) {s : Draft} {t : Token}
    (ht : t.Proper) (hheld : ∀ c ∈ s.held, c = ',') (index : Nat) (rest : List Token) :
    Places o s t (s.after o index t rest) := by
  let free : Draft := { s with held := [] }
  have hpage : (s.after o index t rest).page = (s.placed o index t rest t.text s.used).page := rfl
  have hafter := held_after o s index t rest
  unfold placed at hpage
  unfold heldAfter at hafter
  cases hk : t.kind with
  | unclassified name => simp [Token.Proper, hk] at ht
  | blank =>
    simp only [hk] at hpage hafter
    exact .blank hk hpage hafter
  | lineComment =>
    simp only [hk] at hpage hafter
    have hshown : s.shown o t = Comment.ofLine o.dialect.commentMarks t.text := by simp [shown, hk]
    exact .of_comment hunit ht (by simp [hk, Kind.isComment]) hpage hafter fun h =>
      hshown ▸ sets_lineComment hunit s (hshown ▸ h)
  | blockComment =>
    simp only [hk] at hpage hafter
    have hshown : s.shown o t = Comment.reindent (s.levels.indentation o.unit) t.text := by simp [shown, hk]
    exact .of_comment hunit ht (by simp [hk, Kind.isComment]) hpage hafter fun h =>
      hshown ▸ sets_blockComment hunit s (hshown ▸ h)
  | keyword role =>
    simp only [hk] at hpage hafter
    refine .of_sets (w := Text.collapse t.text) ht hheld (by simp [hk]) (by simp [hk, Kind.isComment])
      (by simp [shown, Token.written, hk]) hpage hafter (fun hs => ?_) False.elim False.elim
    rw [← Text.collapse_append_of_solid fun c hc => by rw [hheld c hc]; decide] at hs ⊢
    obtain ⟨gap, h⟩ := sets_keyword hunit free role hs
    exact ⟨gap, h.to_page rfl⟩
  | opening =>
    simp only [hk] at hpage hafter
    exact .of_sets (w := t.text) ht hheld (by simp [hk]) (by simp [hk, Kind.isComment])
      (by simp [shown, Token.written, hk]) hpage hafter (sets_opening hunit free index (t :: rest))
      (fun _ _ => .inr (.inl hk)) fun _ _ => .inr hk
  | closing =>
    simp only [hk] at hpage hafter
    exact .of_sets (w := t.text) ht hheld (by simp [hk]) (by simp [hk, Kind.isComment])
      (by simp [shown, Token.written, hk]) hpage hafter (sets_closing hunit free)
      (fun _ _ => .inr (.inr hk)) False.elim
  | placeholder =>
    simp only [hk] at hpage hafter
    exact .of_sets (w := t.text) ht hheld (by simp [hk]) (by simp [hk, Kind.isComment])
      (by simp [shown, Token.written, hk]) hpage hafter (fun hs => ⟨_, sets_writeSpaced free hs⟩)
      False.elim False.elim
  | word | quoted | number =>
    simp only [hk] at hpage hafter
    exact .of_sets (w := t.text) ht hheld (by simp [hk]) (by simp [hk, Kind.isComment])
      (by simp [shown, Token.written, hk]) hpage hafter (sets_writeWrapped hunit free) False.elim False.elim
  | operator =>
    simp only [hk] at hpage hafter
    have hshown : s.shown o t = t.text := by simp [shown, Token.written, hk]
    by_cases hcomma : t.text = [',']
    · rw [operator, if_pos hcomma] at hpage
      by_cases hholds : s.HoldsCommas o
      · obtain ⟨hbody, htail⟩ := body_tail_comma hunit free (t := s.held ++ t.text) hholds
        obtain ⟨hbody', htail'⟩ := body_tail_of_page hpage
        rw [if_pos ⟨hcomma, hholds⟩] at hafter
        exact .hold hk hcomma (hbody'.trans hbody) (htail' ▸ htail) hafter
      · rw [if_neg fun h => hholds h.2] at hafter
        exact .of_sets ht hheld (by simp [hk]) (by simp [hk, Kind.isComment]) hshown hpage hafter
          (sets_comma hunit free hholds) (fun _ _ => .inl (by simp [hcomma])) False.elim
    · rw [if_neg fun h => hcomma h.1] at hafter
      exact .of_sets ht hheld (by simp [hk]) (by simp [hk, Kind.isComment]) hshown hpage hafter
        (sets_operator hunit free hcomma) (fun h _ => .inl (List.mem_cons_of_mem _ h))
        fun h _ => .inl (by simp [h])

lemma gapTo_of_sets {s s' : Draft} {t gap : Text} {a b : Prop} (h : Sets s s' t gap a b)
    (ht : t.startsBlank = false) (hne : t ≠ []) : s.gapTo s' = gap := by
  rw [gapTo, ← body_append_tail s', h.body, List.append_assoc, List.drop_left, List.append_assoc]
  exact Text.takeWhile_blank_append h.blank (by rw [Text.startsBlank_append hne, ht])

end Draft

end SqlLayout
