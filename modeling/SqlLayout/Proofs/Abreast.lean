import SqlLayout.Proofs.Lockstep

/-!
# Drafts side by side

Two drafts stand side by side if their pages go on with the same text behind different leads. Later
tokens cannot tell them apart: they write the same behind both leads, since the text in between begins
with ink, so that a token never takes away anything in front of it.
-/

namespace SqlLayout

lemma Text.startsBlank_trimEnd {t : Text} (hb : t.startsBlank = false) (ht : t ≠ []) :
    t.trimEnd.startsBlank = false := by
  have hne := trimEnd_ne_nil hb ht
  obtain ⟨g, -, hg⟩ := exists_trimEnd_append t
  rwa [hg, startsBlank_append hne] at hb

/-- Two pages hold the same text, which begins with ink, behind different leads. -/
def Page.Abreast (lead lead' : Text) (p q : Page) : Prop :=
  ∃ x : Text, x ≠ [] ∧ x.startsBlank = false ∧ p.text = lead ++ x ∧ q.text = lead' ++ x

namespace Page.Abreast

variable {lead lead' : Text} {p q : Page}

lemma append (h : Page.Abreast lead lead' p q) (t : Text) :
    Page.Abreast lead lead' (p.append t) (q.append t) := by
  obtain ⟨x, hne, hx, hp, hq⟩ := h
  refine ⟨x ++ t, by simp [hne], by rw [Text.startsBlank_append hne, hx], ?_, ?_⟩
  · rw [text_append, hp, List.append_assoc]
  · rw [text_append, hq, List.append_assoc]

lemma trimEnd (h : Page.Abreast lead lead' p q) : Page.Abreast lead lead' p.trimEnd q.trimEnd := by
  obtain ⟨x, hne, hx, hp, hq⟩ := h
  have hkept := Text.trimEnd_ne_nil hx hne
  refine ⟨x.trimEnd, hkept, Text.startsBlank_trimEnd hx hne, ?_, ?_⟩
  · rw [text_trimEnd, hp, Text.trimEnd_append_of_trimEnd_ne_nil hkept]
  · rw [text_trimEnd, hq, Text.trimEnd_append_of_trimEnd_ne_nil hkept]

end Page.Abreast

namespace Draft

/-- Two drafts whose pages hold the same text behind different leads, and which agree in all else that
the layout of a later token depends on. -/
structure Abreast (lead lead' : Text) (s u : Draft) : Prop where
  page : Page.Abreast lead lead' s.page u.page
  levels : s.levels = u.levels
  inlineDepth : s.inlineDepth = u.inlineDepth
  held : s.held = u.held
  inLimit : s.inLimit = u.inLimit
  bracket : s.previous = some .blank ∨ s.previous = some .opening ↔
    u.previous = some .blank ∨ u.previous = some .opening
  separated : s.separated = u.separated

namespace Abreast

variable {lead lead' : Text} {s u : Draft} {o : Options}

lemma trimEnd (h : Abreast lead lead' s u) : Abreast lead lead' s.trimEnd u.trimEnd :=
  { h with page := h.page.trimEnd }

lemma write (h : Abreast lead lead' s u) (t : Text) : Abreast lead lead' (s.write t) (u.write t) :=
  { h with page := h.page.append t, separated := rfl }

lemma relevel (h : Abreast lead lead' s u) (f : Levels → Levels) :
    Abreast lead lead' (s.relevel f) (u.relevel f) :=
  { h with levels := congrArg f h.levels }

lemma newLine (h : Abreast lead lead' s u) (unit : Text) :
    Abreast lead lead' (s.newLine unit) (u.newLine unit) where
  page := by
    rw [Draft.newLine, Draft.newLine, h.levels, h.separated]
    exact (h.page.trimEnd.append _).append _
  levels := h.levels
  inlineDepth := h.inlineDepth
  held := h.held
  inLimit := h.inLimit
  bracket := h.bracket
  separated := h.separated

lemma writeSpaced (h : Abreast lead lead' s u) (t : Text) :
    Abreast lead lead' (s.writeSpaced t) (u.writeSpaced t) :=
  h.write _

lemma writeAttached (h : Abreast lead lead' s u) (t : Text) :
    Abreast lead lead' (s.writeAttached t) (u.writeAttached t) :=
  h.trimEnd.write _

lemma writeTight (h : Abreast lead lead' s u) (t : Text) :
    Abreast lead lead' (s.writeTight t) (u.writeTight t) :=
  h.trimEnd.write t

lemma separator (h : Abreast lead lead' s u) (t : Text) :
    Abreast lead lead' (s.separator t) (u.separator t) :=
  { h.writeTight t with page := (h.writeTight t).page.append _, separated := rfl }

lemma writeWrapped (hwrap : o.maxLineLength = 0) (h : Abreast lead lead' s u) (t : Text) :
    Abreast lead lead' (s.writeWrapped o t) (u.writeWrapped o t) := by
  simp only [Draft.writeWrapped, wrapBefore, hwrap, ne_eq, not_true_eq_false, false_and, if_false]
  exact h.writeSpaced t

lemma keyword (hwrap : o.maxLineLength = 0) (h : Abreast lead lead' s u) (role : Role) (own t : Text) :
    Abreast lead lead' (s.keyword o role own t) (u.keyword o role own t) := by
  cases role with
  | clause =>
    exact (((((h.relevel _).relevel _).relevel _).newLine o.unit).relevel _ |>.write _).newLine o.unit
  | breaking =>
    rw [Draft.keyword, Draft.keyword, breakingKeyword, breakingKeyword]
    refine writeSpaced (newLine ?_ o.unit) _
    split
    · exact (h.relevel _).relevel _
    · exact h.relevel _
  | indented => exact (((h.relevel _).relevel _).newLine o.unit).writeSpaced _
  | plain => exact h.writeWrapped hwrap _

lemma beforeBracket (h : Abreast lead lead' s u) :
    Abreast lead lead' s.beforeBracket u.beforeBracket := by
  by_cases hs : s.previous = some .blank ∨ s.previous = some .opening
  · rw [Draft.beforeBracket, if_pos hs, Draft.beforeBracket, if_pos (h.bracket.mp hs)]
    exact h
  · rw [Draft.beforeBracket, if_neg hs, Draft.beforeBracket, if_neg fun hu => hs (h.bracket.mpr hu)]
    exact h.trimEnd

lemma openBlock (h : Abreast lead lead' s u) (t : Text) :
    Abreast lead lead' (s.openBlock o t) (u.openBlock o t) :=
  (((h.newLine o.unit).write t).relevel _).newLine o.unit

lemma opening (h : Abreast lead lead' s u) (index j : Nat) (ts : List Token) (t : Text) :
    Abreast lead lead' (s.opening o index ts t) (u.opening o j ts t) := by
  have hbefore := h.beforeBracket.relevel Levels.dropOverflow
  have hinline : ∀ d notes notes', Abreast lead lead'
      { s.beforeBracket.dropOverflow with inlineDepth := d, notes := notes }
      { u.beforeBracket.dropOverflow with inlineDepth := d, notes := notes' } :=
    fun d notes notes' => { hbefore with inlineDepth := rfl }
  have hunclosed : Abreast lead lead' (s.beforeBracket.dropOverflow.note (.unclosedBracket index))
      (u.beforeBracket.dropOverflow.note (.unclosedBracket j)) := { hbefore with }
  rw [opening_eq, opening_eq, h.inlineDepth]
  split
  · exact (hinline _ _ _).write t
  · split
    · exact (hinline _ _ _).write t
    · exact hbefore.openBlock t
    · exact hunclosed.openBlock t

lemma closing (h : Abreast lead lead' s u) (t : Text) :
    Abreast lead lead' (s.closing o t) (u.closing o t) := by
  rw [Draft.closing, Draft.closing, h.inlineDepth]
  split
  · have hleave : Abreast lead lead' { s with inlineDepth := InlineBlock.leave u.inlineDepth }
        { u with inlineDepth := InlineBlock.leave u.inlineDepth } := { h with inlineDepth := rfl }
    exact hleave.writeAttached t
  · exact ((h.relevel _).newLine o.unit).writeSpaced t

lemma comma (h : Abreast lead lead' s u) (t : Text) : Abreast lead lead' (s.comma o t) (u.comma o t) := by
  have hdrop : Abreast lead lead' s.dropOverflow u.dropOverflow := h.relevel _
  rw [Draft.comma, Draft.comma]
  dsimp only
  rw [hdrop.inlineDepth, hdrop.inLimit]
  split
  · exact hdrop.writeAttached t
  · cases o.commaStyle with
    | trailing => exact (hdrop.writeTight t).newLine o.unit
    | leading =>
      have hheld : Abreast lead lead' { s.dropOverflow.trimEnd with held := t }
          { u.dropOverflow.trimEnd with held := t } := { hdrop.trimEnd with held := rfl }
      exact hheld.newLine o.unit

lemma operator (hwrap : o.maxLineLength = 0) (h : Abreast lead lead' s u) (own t : Text) :
    Abreast lead lead' (s.operator o own t) (u.operator o own t) := by
  rw [Draft.operator, Draft.operator]
  split
  · exact h.comma t
  split
  · exact h.writeAttached t
  split
  · exact h.writeTight t
  split
  · exact h.separator t
  · exact h.writeWrapped hwrap t

lemma lineComment (h : Abreast lead lead' s u) (t : Text) :
    Abreast lead lead' (s.lineComment o t) (u.lineComment o t) :=
  ((h.relevel _).write _).newLine o.unit

lemma blockComment (h : Abreast lead lead' s u) (t : Text) :
    Abreast lead lead' (s.blockComment o t) (u.blockComment o t) := by
  have hs : s.blockComment o t =
      ((s.newLine o.unit).write (Comment.reindent (s.levels.indentation o.unit) t)).newLine o.unit := rfl
  rw [hs, h.levels]
  exact ((h.newLine o.unit).write _).newLine o.unit

lemma after (hwrap : o.maxLineLength = 0) (h : Abreast lead lead' s u) (index j : Nat) (t : Token)
    (ts : List Token) : Abreast lead lead' (s.after o index t ts) (u.after o j t ts) := by
  have hfree : Abreast lead lead' { s with held := [] } { u with held := [] } := { h with held := rfl }
  have hplaced : Abreast lead lead' (s.placed o index t ts t.text s.used)
      (u.placed o j t ts t.text u.used) := by
    rw [placed, placed, h.held]
    cases t.kind with
    | blank | unclassified => exact h
    | lineComment => exact h.lineComment _
    | blockComment => exact h.blockComment _
    | keyword role => exact { hfree.keyword hwrap role t.text (u.held ++ t.text) with inLimit := rfl }
    | opening => exact hfree.opening _ _ _ _
    | closing => exact hfree.closing _
    | placeholder => exact hfree.writeSpaced _
    | operator => exact hfree.operator hwrap _ _
    | word | quoted | number => exact hfree.writeWrapped hwrap _
  exact { hplaced with bracket := .rfl }

/-- A whole run writes the same behind both leads. -/
lemma run (hwrap : o.maxLineLength = 0) (hbind : o.bindings = .none) {ts : List Token}
    (hts : ∀ t ∈ ts, t.Proper) (h : Abreast lead lead' s u) (index j : Nat) :
    Abreast lead lead' (s.run o index ts).1 (u.run o j ts).1 := by
  induction ts generalizing s u index j with
  | nil => exact h
  | cons t ts ih =>
    obtain ⟨ht, hts⟩ := List.forall_mem_cons.mp hts
    rw [run_cons hbind ht, run_cons hbind ht]
    exact ih hts (h.after hwrap index j t ts) (index + 1) (j + 1)

end Abreast

end Draft

end SqlLayout
