import SqlLayout.Editor
import SqlLayout.Proofs.Closure
import SqlLayout.Proofs.LastLine

/-!
# Edits of a whole document

An editor counts a document in UTF-16 code units and ends its lines at line feeds, carriage returns and
pairs of the two. The edit that formats a document ends at a place that is counted in characters and line
feeds. `edit_replaces_document_iff` says when this is the end of the document, so that applying the edit
leaves nothing behind.
-/

namespace SqlLayout.Editor

/-! ### Documents as an editor counts them -/

/-- The code units of a character in UTF-16: its code point, or two surrogates for a code point outside
of the basic plane. -/
def charUnits (c : Char) : List Nat :=
  if c.toNat < 0x10000 then [c.toNat]
  else [0xd800 + (c.toNat - 0x10000) / 0x400, 0xdc00 + (c.toNat - 0x10000) % 0x400]

def units (t : Text) : List Nat :=
  t.flatMap charUnits

/-- The number of code units in front of a position. A line ends in front of a line feed, a carriage
return or a pair of the two; a character past the end of its line means the end of the line, and a line
past the last one means the end of the document. -/
def offsetAt (line character : Nat) : List Nat → Nat
  | [] => 0
  | 13 :: 10 :: us => if line = 0 then 0 else 2 + offsetAt (line - 1) character us
  | u :: us =>
    if u = 10 ∨ u = 13 then
      if line = 0 then 0 else 1 + offsetAt (line - 1) character us
    else if line = 0 then
      if character = 0 then 0 else 1 + offsetAt 0 (character - 1) us
    else 1 + offsetAt line character us

def Edit.apply (e : Edit) (document : List Nat) : List Nat :=
  document.take (offsetAt e.range.startLine e.range.startCharacter document) ++ units e.newText ++
    document.drop (offsetAt e.range.endLine e.range.endCharacter document)

/-- Whether every carriage return of a text is followed by a line feed. -/
def returnsPaired : Text → Bool
  | [] => true
  | '\r' :: '\n' :: cs => returnsPaired cs
  | c :: cs => c != '\r' && returnsPaired cs

lemma units_cons (c : Char) (t : Text) : units (c :: t) = charUnits c ++ units t := rfl

lemma charUnits_no_break {c : Char} (hfeed : c ≠ '\n') (hreturn : c ≠ '\r') :
    ∀ u ∈ charUnits c, u ≠ 10 ∧ u ≠ 13 := by
  have hcode : ∀ d : Char, c ≠ d → c.toNat ≠ d.toNat := fun d hne heq => hne (Char.toNat_inj.mp heq)
  have h10 : c.toNat ≠ 10 := hcode '\n' hfeed
  have h13 : c.toNat ≠ 13 := hcode '\r' hreturn
  intro u hu
  rw [charUnits] at hu
  split at hu
  · obtain rfl := List.mem_singleton.mp hu
    exact ⟨h10, h13⟩
  · simp only [List.mem_cons, List.not_mem_nil, or_false] at hu
    omega

lemma length_charUnits (c : Char) : (charUnits c).length = if c.toNat < 0x10000 then 1 else 2 := by
  rw [charUnits]
  split <;> rfl

lemma length_le_length_units (t : Text) : t.length ≤ (units t).length := by
  induction t with
  | nil => exact Nat.le_refl _
  | cons c t ih =>
    rw [units_cons, List.length_append, length_charUnits, List.length_cons]
    split <;> omega

lemma head?_units_ne {t : Text} (h : ∀ cs, t = '\n' :: cs → False) : (units t).head? ≠ some 10 := by
  cases t with
  | nil => simp [units]
  | cons c cs =>
    have hc : c.toNat ≠ 10 := fun heq => h cs (by rw [Char.toNat_inj.mp (heq.trans rfl : c.toNat = '\n'.toNat)])
    rw [units_cons, charUnits]
    split
    · simpa using hc
    · simp only [List.cons_append, List.head?_cons, ne_eq, Option.some.injEq]
      omega

/-! ### Offsets of positions -/

section

variable {us : List Nat} (line character : Nat)

lemma offsetAt_feed :
    offsetAt line character (10 :: us) = if line = 0 then 0 else 1 + offsetAt (line - 1) character us := by
  simp [offsetAt]

lemma offsetAt_return (h : us.head? ≠ some 10) :
    offsetAt line character (13 :: us) = if line = 0 then 0 else 1 + offsetAt (line - 1) character us := by
  rw [offsetAt.eq_def]
  split
  · next heq => simp at heq
  · next vs heq =>
    obtain ⟨-, rfl⟩ := List.cons.inj heq
    exact absurd rfl h
  · next u vs _ heq =>
    obtain ⟨rfl, rfl⟩ := List.cons.inj heq
    simp

lemma offsetAt_unit {u : Nat} (hfeed : u ≠ 10) (hreturn : u ≠ 13) :
    offsetAt line character (u :: us) =
      if line = 0 then
        if character = 0 then 0 else 1 + offsetAt 0 (character - 1) us
      else 1 + offsetAt line character us := by
  rw [offsetAt.eq_def]
  split
  · next heq => simp at heq
  · next vs heq => exact absurd (List.cons.inj heq).1 hreturn
  · next v vs _ heq =>
    obtain ⟨rfl, rfl⟩ := List.cons.inj heq
    rw [if_neg (not_or.mpr ⟨hfeed, hreturn⟩)]

lemma offsetAt_append {vs : List Nat} (hvs : ∀ u ∈ vs, u ≠ 10 ∧ u ≠ 13) :
    offsetAt line character (vs ++ us) =
      if line = 0 then
        if character < vs.length then character
        else vs.length + offsetAt 0 (character - vs.length) us
      else vs.length + offsetAt line character us := by
  induction vs generalizing character with
  | nil => by_cases hline : line = 0 <;> simp [hline]
  | cons v vs ih =>
    obtain ⟨hv, hvs⟩ := List.forall_mem_cons.mp hvs
    rw [List.cons_append, offsetAt_unit line character hv.1 hv.2, List.length_cons]
    by_cases hline : line = 0
    · subst hline
      rw [if_pos rfl, if_pos rfl]
      cases character with
      | zero => simp
      | succ n =>
        have hih := ih n hvs
        rw [if_pos rfl] at hih
        rw [if_neg (Nat.succ_ne_zero n), Nat.add_sub_cancel, hih, Nat.add_sub_add_right]
        split <;> split <;> omega
    · have hih := ih character hvs
      rw [if_neg hline] at hih
      rw [if_neg hline, if_neg hline, hih]
      omega

lemma offsetAt_zero_zero (us : List Nat) : offsetAt 0 0 us = 0 := by
  rw [offsetAt.eq_def]
  split <;> simp

lemma offsetAt_zero_le (us : List Nat) : offsetAt 0 character us ≤ character := by
  induction us generalizing character with
  | nil => exact Nat.zero_le _
  | cons u us ih =>
    by_cases hbreak : u = 10 ∨ u = 13
    · have hzero : offsetAt 0 character (u :: us) = 0 := by
        rw [offsetAt.eq_def]
        split
        · rfl
        · rfl
        · next v vs _ heq =>
          obtain ⟨rfl, rfl⟩ := List.cons.inj heq
          rw [if_pos hbreak, if_pos rfl]
      omega
    · rw [offsetAt_unit 0 character (not_or.mp hbreak).1 (not_or.mp hbreak).2, if_pos rfl]
      split
      · omega
      · have hle := ih (character - 1)
        omega

lemma offsetAt_le_length (us : List Nat) : offsetAt line character us ≤ us.length := by
  fun_induction offsetAt line character us <;> simp only [List.length_cons, List.length_nil] <;> omega

end

/-! ### The end of a document -/

lemma offsetAt_units_lt {t : Text} {line : Nat} (hline : line < t.count '\n') (character : Nat) :
    offsetAt line character (units t) < (units t).length := by
  fun_induction returnsPaired t generalizing line character with
  | case1 => simp at hline
  | case2 cs ih =>
    have hunits : units ('\r' :: '\n' :: cs) = 13 :: 10 :: units cs := rfl
    rw [List.count_cons_of_ne (by decide), List.count_cons_self] at hline
    rw [hunits, offsetAt, List.length_cons, List.length_cons]
    split
    · omega
    · have hbefore : line - 1 < cs.count '\n' := by omega
      have hlt := ih hbefore character
      omega
  | case3 c cs hpair ih =>
    by_cases hfeed : c = '\n'
    · subst hfeed
      have hunits : units ('\n' :: cs) = 10 :: units cs := rfl
      rw [List.count_cons_self] at hline
      rw [hunits, offsetAt_feed, List.length_cons]
      split
      · omega
      · have hbefore : line - 1 < cs.count '\n' := by omega
        have hlt := ih hbefore character
        omega
    · rw [List.count_cons_of_ne hfeed] at hline
      by_cases hreturn : c = '\r'
      · subst hreturn
        have hunits : units ('\r' :: cs) = 13 :: units cs := rfl
        rw [hunits, offsetAt_return line character (head?_units_ne fun ds => hpair ds rfl), List.length_cons]
        split
        · omega
        · have hbefore : line - 1 < cs.count '\n' := by omega
          have hlt := ih hbefore character
          omega
      · rw [units_cons, offsetAt_append line character (charUnits_no_break hfeed hreturn), List.length_append]
        have hlt := ih hline character
        have hlt' := ih hline (character - (charUnits c).length)
        split
        · next hzero =>
          subst hzero
          split <;> omega
        · omega

/-- The place behind the last line, counted in line feeds and characters, is the end of the document
exactly if every carriage return is paired and the last line has no surrogates. -/
lemma offsetAt_units_eq_length_iff (t : Text) :
    offsetAt (t.count '\n') (Text.lastLine t).length (units t) = (units t).length ↔
      returnsPaired t = true ∧ ∀ c ∈ Text.lastLine t, c.toNat < 0x10000 := by
  fun_induction returnsPaired t with
  | case1 => simp [units, offsetAt, Text.lastLine]
  | case2 cs ih =>
    have hunits : units ('\r' :: '\n' :: cs) = 13 :: 10 :: units cs := rfl
    rw [List.count_cons_of_ne (by decide), List.count_cons_self,
      Text.lastLine_cons_of_mem _ List.mem_cons_self, Text.lastLine_feed, ← ih, hunits, offsetAt,
      if_neg (Nat.succ_ne_zero _), Nat.add_sub_cancel, List.length_cons, List.length_cons]
    omega
  | case3 c cs hpair ih =>
    by_cases hfeed : c = '\n'
    · subst hfeed
      have hunits : units ('\n' :: cs) = 10 :: units cs := rfl
      rw [List.count_cons_self, Text.lastLine_feed, hunits, offsetAt_feed, if_neg (Nat.succ_ne_zero _),
        Nat.add_sub_cancel, List.length_cons, bne_iff_ne.mpr (by decide), Bool.true_and, ← ih]
      omega
    · rw [List.count_cons_of_ne hfeed]
      by_cases hreturn : c = '\r'
      · -- a carriage return of its own ends a line that only the editor counts
        subst hreturn
        have hunits : units ('\r' :: cs) = 13 :: units cs := rfl
        rw [hunits, offsetAt_return _ _ (head?_units_ne fun ds => hpair ds rfl), List.length_cons]
        refine iff_of_false ?_ (by simp)
        split
        · omega
        · next hpos =>
          have hbefore : cs.count '\n' - 1 < cs.count '\n' := by omega
          have hlt := offsetAt_units_lt hbefore (Text.lastLine ('\r' :: cs)).length
          omega
      · rw [units_cons, offsetAt_append _ _ (charUnits_no_break hfeed hreturn), List.length_append,
          bne_iff_ne.mpr hreturn, Bool.true_and]
        by_cases hmem : '\n' ∈ cs
        · rw [if_neg (Nat.pos_iff_ne_zero.mp (List.count_pos_iff.mpr hmem)), Text.lastLine_cons_of_mem c hmem,
            ← ih]
          omega
        · rw [List.count_eq_zero.mpr hmem, Text.lastLine_of_not_mem hmem] at ih
          rw [List.count_eq_zero.mpr hmem, Text.lastLine_of_not_mem (by simp [hmem, Ne.symm hfeed]), if_pos rfl,
            length_charUnits, List.length_cons, List.forall_mem_cons]
          by_cases hc : c.toNat < 0x10000
          · simp only [hc, if_true, true_and]
            rw [if_neg (by omega), Nat.add_sub_cancel, ← ih]
            omega
          · -- the pair of surrogates takes the place of one character and leaves the last unit behind
            simp only [hc, if_false, false_and, and_false, iff_false]
            have hlength := length_le_length_units cs
            have hle := offsetAt_zero_le (cs.length + 1 - 2) (units cs)
            split <;> omega

lemma wholeRange_eq (t : Text) : wholeRange t = ⟨0, 0, t.count '\n', (Text.lastLine t).length⟩ := by
  obtain ⟨hcount, hlast⟩ := Text.lines_eq t
  rw [← hcount, ← hlast]
  rfl

lemma apply_wholeRange (t newText : Text) :
    Edit.apply ⟨wholeRange t, newText⟩ (units t) = units newText ↔
      returnsPaired t = true ∧ ∀ c ∈ Text.lastLine t, c.toNat < 0x10000 := by
  have hle := offsetAt_le_length (t.count '\n') (Text.lastLine t).length (units t)
  rw [Edit.apply, wholeRange_eq, offsetAt_zero_zero, List.take_zero, List.nil_append,
    List.append_right_eq_self, List.drop_eq_nil_iff, ← offsetAt_units_eq_length_iff]
  exact ⟨Nat.le_antisymm hle, Nat.le_of_eq ∘ Eq.symm⟩

lemma Indentation.isAllBlank_unit (i : Indentation) : i.unit.isAllBlank = true := by
  rw [unit]
  split
  · have hblank : Text.isBlank ' ' = true := by decide
    simp [Text.isAllBlank, hblank]
  · rfl

/-- A formatted text as a document: with a line feed at its end, unless it is empty. -/
def asDocument (formatted : Text) : Text :=
  if formatted = [] then [] else formatted ++ ['\n']

lemma formatEdits_of_ok {text formatted : Text} {i : Indentation}
    (h : formatWith { unit := i.unit } text = .ok formatted) :
    formatEdits text i =
      if asDocument formatted = text then [] else [⟨wholeRange text, asDocument formatted⟩] := by
  have hnew : (if formatted.isEmpty then [] else formatted ++ ['\n']) = asDocument formatted := by
    rw [asDocument]
    cases formatted <;> rfl
  rw [formatEdits, h]
  simp only [hnew]

lemma eq_of_mem_formatEdits {text : Text} {i : Indentation} {e : Edit} (h : e ∈ formatEdits text i) :
    formatEdits text i = [e] ∧ e.range = wholeRange text := by
  cases hf : formatWith { unit := i.unit } text with
  | error f => simp [formatEdits, hf] at h
  | ok formatted =>
    rw [formatEdits_of_ok hf] at h ⊢
    split at h
    · simp at h
    · next hnew =>
      obtain rfl := List.mem_singleton.mp h
      exact ⟨if_neg hnew, rfl⟩

/-- A document has at most one edit that formats it. Applying the edit gives its new text and nothing else
if and only if every carriage return of the document is followed by a line feed and its last line has no
character outside of the basic plane. A document that can be read is formatted; it has no edit only if it
is its own formatted text, and otherwise this is the new text of the edit. -/
theorem edit_replaces_document_iff (text : Text) (i : Indentation) :
    (∀ e ∈ formatEdits text i, formatEdits text i = [e] ∧
      (e.apply (units text) = units e.newText ↔
        returnsPaired text = true ∧ ∀ c ∈ Text.lastLine text, c.toNat < 0x10000)) ∧
    ∀ ts, tokenize .standard text = .ok ts → ∃ formatted, formatWith { unit := i.unit } text = .ok formatted ∧
      (formatEdits text i = [] → text = asDocument formatted) ∧
      ∀ e ∈ formatEdits text i, e.newText = asDocument formatted := by
  refine ⟨fun e he => ?_, fun ts hts => ?_⟩
  · obtain ⟨hone, hrange⟩ := eq_of_mem_formatEdits he
    refine ⟨hone, ?_⟩
    rw [← apply_wholeRange text e.newText, ← hrange]
  · obtain ⟨formatted, -, hf, -⟩ :=
      exists_tokenize_formatWith (o := { unit := i.unit }) rfl rfl i.isAllBlank_unit hts
    refine ⟨formatted, hf, ?_, ?_⟩
    · intro hnone
      rw [formatEdits_of_ok hf] at hnone
      split at hnone
      · next hsame => exact hsame.symm
      · simp at hnone
    · intro e he
      rw [formatEdits_of_ok hf] at he
      split at he
      · simp at he
      · obtain rfl := List.mem_singleton.mp he
        rfl

theorem edit_replaces_document_iff_of_pair :
    ∃ e, formatEdits "'😀'\r\n?".toList ⟨2, true⟩ = [e] ∧ e.newText = "'😀' ?\n".toList ∧
      e.apply (units "'😀'\r\n?".toList) = units "'😀' ?\n".toList := by
  have hreads : ∃ ts, Reads Dialect.standard.lexicon .start .start
      (['\x27', '😀', '\x27'] ++ (['\r', '\n'] ++ (['?'] ++ []))) ts ∧
      layout {} ts = .ok "'😀' ?".toList :=
    ⟨_, .cons rfl rfl (by simp) (.cons rfl rfl (by simp) (.cons rfl rfl (by simp) (.nil _ _))), rfl⟩
  obtain ⟨ts, hts, hlayout⟩ := hreads
  have hformat : formatWith { unit := Indentation.unit ⟨2, true⟩ } "'😀'\r\n?".toList = .ok "'😀' ?".toList :=
    formatWith_eq_ok (tokensFrom_of_reads hts) hlayout
  have hedits := formatEdits_of_ok hformat
  rw [if_neg (by decide)] at hedits
  obtain ⟨hone, happly⟩ := (edit_replaces_document_iff _ _).1 _ (hedits ▸ List.mem_singleton_self _)
  exact ⟨_, hone, rfl, happly.mpr ⟨by decide, List.all_iff_forall_prop.mp (by decide)⟩⟩

/-- A carriage return of its own and a character outside of the basic plane each move the end of the
document away from the end of the edit, also where the other one is absent: of `?` and `?` with a carriage
return between them the return and the second sign stay behind, of a string with one such character its
closing quote. -/
theorem edit_leaves_rest_of_document :
    (¬∀ (text : Text) (i : Indentation), ∀ e ∈ formatEdits text i, (∀ c ∈ text, c.toNat < 0x10000) →
      e.apply (units text) = units e.newText) ∧
    ¬∀ (text : Text) (i : Indentation), ∀ e ∈ formatEdits text i, '\r' ∉ text →
      e.apply (units text) = units e.newText := by
  have hreturn : ∃ ts, Reads Dialect.standard.lexicon .start .start (['?'] ++ (['\r'] ++ (['?'] ++ []))) ts ∧
      layout {} ts = .ok "? ?".toList :=
    ⟨_, .cons rfl rfl (by simp) (.cons rfl rfl (by simp) (.cons rfl rfl (by simp) (.nil _ _))), rfl⟩
  have hpair : ∃ ts, Reads Dialect.standard.lexicon .start .start (['\x27', '😀', '\x27'] ++ []) ts ∧
      layout {} ts = .ok "'😀'".toList :=
    ⟨_, .cons rfl rfl (by simp) (.nil _ _), rfl⟩
  obtain ⟨ts, hts, hlayout⟩ := hreturn
  obtain ⟨us, hus, hlayout'⟩ := hpair
  constructor
  · intro h
    have hedits := formatEdits_of_ok (i := ⟨2, true⟩) (formatWith_eq_ok (tokensFrom_of_reads hts) hlayout)
    rw [if_neg (by decide)] at hedits
    have hrest := h _ ⟨2, true⟩ _ (hedits ▸ List.mem_singleton_self _) (List.all_iff_forall_prop.mp (by decide))
    exact absurd hrest (by decide)
  · intro h
    have hedits := formatEdits_of_ok (i := ⟨2, true⟩) (formatWith_eq_ok (tokensFrom_of_reads hus) hlayout')
    rw [if_neg (by decide)] at hedits
    have hrest := h _ ⟨2, true⟩ _ (hedits ▸ List.mem_singleton_self _) (by decide)
    exact absurd hrest (by decide)

end SqlLayout.Editor
