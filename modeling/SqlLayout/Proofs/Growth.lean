import SqlLayout.Proofs.Bookkeeping
import SqlLayout.Proofs.Pieces

/-!
# Pages grow

Later tokens take blanks away from the end of a page, and nothing else. What stands on it up to some ink
stays there to the end of the run.
-/

namespace SqlLayout

lemma Text.prefix_trimEnd {t u : Text} (ht : t.trimEnd = t) (h : t <+: u) : t <+: u.trimEnd := by
  obtain ⟨r, rfl⟩ := h
  by_cases hr : Text.trimEnd r = []
  · have hcut : trimEnd (t ++ r) = t := (trimEnd_append_of_trimEnd_eq_nil hr).trans ht
    exact ⟨[], by rw [List.append_nil, hcut]⟩
  · rw [trimEnd_append_of_trimEnd_ne_nil hr]
    exact List.prefix_append _ _

lemma Text.trimStart_append_solid {a x : Text} (hx : x.Solid) (r : Text) :
    trimStart (a ++ (x ++ r)) = trimStart a ++ (x ++ r) := by
  have hstart : startsBlank (x ++ r) = false := by rw [startsBlank_append hx.ne_nil, hx.head]
  rw [trimStart_append]
  split
  · next ha =>
    rw [ha, List.nil_append]
    exact trimStart_blank_append (b := []) rfl hstart
  · rfl

namespace Draft

/-- What stands on the page of one draft up to some ink stands on that of another one, too. -/
def Grows (s s' : Draft) : Prop :=
  ∀ t : Text, t.trimEnd = t → t <+: s.page.text → t <+: s'.page.text

namespace Grows

variable {o : Options} {s u u' : Draft}

lemma refl (s : Draft) : Grows s s :=
  fun _ _ hpage => hpage

lemma trans (h : Grows s u) (h' : Grows u u') : Grows s u' :=
  fun t ht hpage => h' t ht (h t ht hpage)

lemma of_page (h : Grows s u) (hu : u'.page = u.page) : Grows s u' := by
  intro t ht hpage
  rw [hu]
  exact h t ht hpage

lemma append (h : Grows s u) {t : Text} (hu : u'.page = u.page.append t) : Grows s u' := by
  intro t ht hpage
  rw [hu, Page.text_append]
  exact (h t ht hpage).trans (List.prefix_append _ _)

lemma trimEnd (h : Grows s u) : Grows s u.trimEnd := by
  intro t ht hpage
  rw [Draft.trimEnd, Page.text_trimEnd]
  exact Text.prefix_trimEnd ht (h t ht hpage)

variable (h : Grows s u) (t : Text)
include h

lemma write : Grows s (u.write t) :=
  h.append rfl

lemma newLine (unit : Text) : Grows s (u.newLine unit) := by
  have hends : Grows s { u.trimEnd with page := u.page.trimEnd.append (if u.separated then ['\n', '\n'] else ['\n']) } :=
    h.trimEnd.append rfl
  exact hends.append rfl

lemma writeAttached : Grows s (u.writeAttached t) :=
  h.trimEnd.write _

lemma writeTight : Grows s (u.writeTight t) :=
  h.trimEnd.write t

lemma writeWrapped : Grows s (u.writeWrapped o t) := by
  have hbefore : Grows s (u.wrapBefore o t) := by
    unfold wrapBefore
    split
    · apply newLine
      exact h.of_page rfl
    · exact h
  exact hbefore.write _

lemma keyword (role : Role) (own : Text) : Grows s (u.keyword o role own t) := by
  cases role with
  | clause =>
    have hbefore : Grows s ((u.dropOverflow.outdent .continuation).outdent .clause) := h.of_page rfl
    have hline : Grows s ((((u.dropOverflow.outdent .continuation).outdent .clause).newLine o.unit).indent
      .clause) := (hbefore.newLine _).of_page rfl
    exact (hline.write _).newLine _
  | breaking =>
    have hbefore : Grows s
        (if isJoin o.dialect own then u.dropOverflow.outdent .continuation else u.dropOverflow) := by
      split <;> exact h.of_page rfl
    exact (hbefore.newLine _).write _
  | indented =>
    have hbefore : Grows s (u.dropOverflow.indent .continuation) := h.of_page rfl
    exact (hbefore.newLine _).write _
  | plain => exact h.writeWrapped _

lemma openBlock : Grows s (u.openBlock o t) := by
  have hblock : Grows s (((u.newLine o.unit).write t).indent .block) :=
    ((h.newLine _).write t).of_page rfl
  exact hblock.newLine _

lemma opening (index : Nat) (ts : List Token) : Grows s (u.opening o index ts t) := by
  have hbefore : Grows s u.beforeBracket.dropOverflow := by
    unfold beforeBracket
    split
    · exact h.of_page rfl
    · exact h.trimEnd.of_page rfl
  rw [opening_eq]
  split
  · exact hbefore.append rfl
  split
  · exact hbefore.append rfl
  · exact hbefore.openBlock t
  · apply openBlock
    exact hbefore.of_page rfl

lemma closing : Grows s (u.closing o t) := by
  unfold Draft.closing
  split
  · apply writeAttached
    exact h.of_page rfl
  · have hbefore : Grows s (u.outdent .block) := h.of_page rfl
    exact (hbefore.newLine _).write _

lemma comma : Grows s (u.comma o t) := by
  have hbefore : Grows s u.dropOverflow := h.of_page rfl
  rw [Draft.comma]
  split
  · exact hbefore.writeAttached t
  split
  · exact (hbefore.writeTight t).newLine _
  · apply newLine
    exact hbefore.trimEnd.of_page rfl

lemma operator (own : Text) : Grows s (u.operator o own t) := by
  rw [Draft.operator]
  split
  · exact h.comma t
  split
  · exact h.writeAttached t
  split
  · exact h.writeTight t
  split
  · have hpage : (u.separator t).page = (u.writeTight t).page.append ['\n', '\n'] := rfl
    exact (h.writeTight t).append hpage
  · exact h.writeWrapped t

end Grows

lemma grows_of_step {o : Options} {s s' : Draft} {index : Nat} {t : Token} {rest : List Token}
    (h : s.step o index t rest = .ok s') : Grows s s' := by
  obtain ⟨c, used, -, rfl⟩ := exists_placed_of_step h
  change Grows s (s.placed o index t rest c used)
  have hfree : Grows s { s with held := [] } := (Grows.refl s).of_page rfl
  unfold placed
  cases t.kind with
  | blank | unclassified => exact .refl s
  | lineComment =>
    have hbefore : Grows s s.dropOverflow := (Grows.refl s).of_page rfl
    exact (hbefore.write _).newLine _
  | blockComment => exact (((Grows.refl s).newLine _).write _).newLine _
  | keyword role => exact (hfree.keyword _ role _).of_page rfl
  | opening => exact hfree.opening _ _ _
  | closing => exact hfree.closing _
  | placeholder => exact hfree.append rfl
  | operator => exact hfree.operator _ _
  | word | quoted | number => exact hfree.writeWrapped _

/-! ### Runs that may stop -/

section

variable {o : Options} {s : Draft} {index : Nat} {ts : List Token}

lemma steps_at {drafts : List Draft} {failure : Option LayoutError} (h : s.steps o index ts = (drafts, failure))
    {k : Nat} (hk : k ≤ drafts.length) {t : Token} (ht : ts[k]? = some t) :
    (∀ s', (draftAt s drafts k).step o (index + k) t (ts.drop (k + 1)) = .ok s' →
      k < drafts.length ∧ draftAt s drafts (k + 1) = s') ∧
    ∀ e, (draftAt s drafts k).step o (index + k) t (ts.drop (k + 1)) = .error e →
      drafts.length = k ∧ failure = some e := by
  have hrest := steps_from h hk
  obtain ⟨hlength, rfl⟩ := List.getElem?_eq_some_iff.mp ht
  rw [List.drop_eq_getElem_cons hlength] at hrest
  refine ⟨fun s' hstep => ?_, fun e hstep => ?_⟩
  · rw [steps_cons_ok hstep, Prod.mk.injEq] at hrest
    have hget : drafts[k]? = some s' := by rw [← List.head?_drop, ← hrest.1, List.head?_cons]
    refine ⟨(List.getElem?_eq_some_iff.mp hget).1, ?_⟩
    rw [draftAt, List.getD_cons_succ, List.getD_eq_getElem?_getD, hget, Option.getD_some]
  · rw [steps, hstep, Prod.mk.injEq] at hrest
    exact ⟨Nat.le_antisymm (List.drop_eq_nil_iff.mp hrest.1.symm) hk, hrest.2.symm⟩

lemma step_of_steps {k : Nat} (hk : k < (s.steps o index ts).1.length) :
    ∃ t, ts[k]? = some t ∧ (draftAt s (s.steps o index ts).1 k).step o (index + k) t (ts.drop (k + 1)) =
      .ok (draftAt s (s.steps o index ts).1 (k + 1)) := by
  have hsteps : s.steps o index ts = ((s.steps o index ts).1, (s.steps o index ts).2) := rfl
  cases ht : ts[k]? with
  | none =>
    have hrest := steps_from hsteps hk.le
    rw [List.drop_eq_nil_of_le (List.getElem?_eq_none_iff.mp ht), steps, Prod.mk.injEq] at hrest
    have hlength := List.drop_eq_nil_iff.mp hrest.1.symm
    omega
  | some t =>
    have hat := steps_at hsteps hk.le ht
    cases hstep : (draftAt s (s.steps o index ts).1 k).step o (index + k) t (ts.drop (k + 1)) with
    | error e =>
      have hlength := (hat.2 e hstep).1
      omega
    | ok s' => exact ⟨t, rfl, by rw [hstep, (hat.1 s' hstep).2]⟩

lemma draftAt_length (s : Draft) (drafts : List Draft) :
    draftAt s drafts drafts.length = drafts.getLastD s := by
  induction drafts generalizing s with
  | nil => rfl
  | cons s' drafts ih => rw [List.length_cons, draftAt_succ, ih, List.getLastD_cons]

/-- What has been written up to some ink stays on the page to the end of the run. -/
lemma grows_to_end {k : Nat} (hk : k ≤ (s.steps o index ts).1.length) :
    Grows (draftAt s (s.steps o index ts).1 k) (s.run o index ts).1 := by
  have hend : (s.run o index ts).1 =
      draftAt s (s.steps o index ts).1 (s.steps o index ts).1.length := by
    rw [run_eq_steps, draftAt_length]
  rw [hend]
  induction hk using Nat.decreasingInduction with
  | self => exact .refl _
  | of_succ k hk ih =>
    obtain ⟨t, -, hstep⟩ := step_of_steps hk
    exact (grows_of_step hstep).trans ih

lemma prefix_text_of_run {a x : Text} (hx : x.Solid) (h : a ++ x <+: s.page.text) :
    a.trimStart ++ x <+: (s.run o index ts).1.text := by
  have hgrows : Grows s (s.run o index ts).1 := grows_to_end (Nat.zero_le _)
  obtain ⟨r, hr⟩ := hgrows _ (Text.trimEnd_append_solid hx) h
  rw [text, Text.trim, ← hr, List.append_assoc, Text.trimStart_append_solid hx, ← List.append_assoc]
  exact Text.prefix_trimEnd (Text.trimEnd_append_solid hx) (List.prefix_append _ _)

end

end Draft

end SqlLayout
