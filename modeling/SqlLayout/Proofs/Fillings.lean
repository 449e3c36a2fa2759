import SqlLayout.Command.Run
import SqlLayout.Proofs.Alike
import SqlLayout.Proofs.StrayTokens

/-!
# Layout of raw values

The values of placeholders may hold halves of surrogate pairs, and the layout runs with the halves filled.
It never looks at what they are filled with, as long as it is no blank: all such fillings run alike
(`run_fill`), and one raw text gives the page of each of them (`Family.exists_text`). Two fillings that agree
nowhere determine that text.
-/

namespace SqlLayout

/-- A filling by characters that are not blank. -/
def Filling.Solid (f : Filling) : Prop :=
  ∀ n, Text.isBlank (f n) = false

/-! ### Filled texts -/

namespace RawText

variable {f : Filling}

@[simp]
lemma fill_nil (f : Filling) : fill f [] = [] := rfl

@[simp]
lemma fill_cons (f : Filling) (c : CodePoint) (t : RawText) : fill f (c :: t) = c.fill f :: fill f t := rfl

@[simp]
lemma fill_append (f : Filling) (t u : RawText) : fill f (t ++ u) = fill f t ++ fill f u :=
  List.map_append

@[simp]
lemma fill_eq_nil {t : RawText} : fill f t = [] ↔ t = [] :=
  List.map_eq_nil_iff

@[simp]
lemma fill_raw (f : Filling) (t : Text) : fill f t.raw = t := by
  simp [fill, Text.raw, Function.comp_def, CodePoint.fill]

/-- Whether a code point is a blank; a half is none. -/
def isBlank (c : CodePoint) : Bool :=
  c.char?.any Text.isBlank

lemma isBlank_fill (hf : f.Solid) : Text.isBlank ∘ CodePoint.fill f = isBlank := by
  funext c
  cases c with
  | char c => rfl
  | half n => exact hf n

def trimEnd (t : RawText) : RawText :=
  (t.reverse.dropWhile isBlank).reverse

def trim (t : RawText) : RawText :=
  trimEnd (t.dropWhile isBlank)

lemma trimEnd_fill (hf : f.Solid) (t : RawText) : Text.trimEnd (t.fill f) = fill f t.trimEnd := by
  rw [Text.trimEnd, Text.dropEndWhile, trimEnd, fill, fill, ← List.map_reverse, List.dropWhile_map,
    isBlank_fill hf, ← List.map_reverse]

lemma fill_eq_lineFeed_iff (hf : f.Solid) {c : CodePoint} : c.fill f = '\n' ↔ c = .char '\n' := by
  cases c with
  | char c => simp [CodePoint.fill]
  | half n =>
    have hne : f n ≠ '\n' := fun heq => absurd (hf n) (by simp [heq, Text.isBlank])
    simp [CodePoint.fill, hne]

lemma contains_lineFeed_fill (hf : f.Solid) (t : RawText) :
    (t.fill f).contains '\n' = t.contains (.char '\n') := by
  simp [fill, fill_eq_lineFeed_iff hf]

lemma takeWhile_fill (hf : f.Solid) (t : RawText) :
    (t.fill f).takeWhile (· ≠ '\n') = fill f (t.takeWhile (· ≠ .char '\n')) := by
  have hcomp : (fun c => decide (c ≠ '\n')) ∘ CodePoint.fill f = fun c => decide (c ≠ .char '\n') := by
    funext c
    simp [fill_eq_lineFeed_iff hf]
  rw [fill, fill, List.takeWhile_map, hcomp]

lemma toNat_ofNat_of_le {n : Nat} (h : 0xe000 ≤ n) (hn : n < 0x110000) : (Char.ofNat n).toNat = n := by
  rw [Char.ofNat, dif_pos (.inr ⟨by omega, hn⟩)]
  rfl

lemma toNat_first (n : Fin 2048) : (first n).toNat = 0xf0000 + n.val :=
  toNat_ofNat_of_le (by omega) (by omega)

lemma toNat_second (n : Fin 2048) : (second n).toNat = 0x100000 + n.val :=
  toNat_ofNat_of_le (by omega) (by omega)

lemma not_isBlank_of_le {c : Char} (h : 0xe000 ≤ c.toNat) : Text.isBlank c = false := by
  simp only [Text.isBlank, Bool.or_eq_false_iff, Bool.and_eq_false_iff, decide_eq_false_iff_not,
    beq_eq_false_iff_ne]
  omega

lemma solid_first : Filling.Solid first :=
  fun n => not_isBlank_of_le (by rw [toNat_first]; omega)

lemma solid_second : Filling.Solid second :=
  fun n => not_isBlank_of_le (by rw [toNat_second]; omega)

/-- A raw text is determined by its two fillings. -/
lemma ofFillings_fill (t : RawText) : ofFillings (t.fill first) (t.fill second) = t := by
  induction t with
  | nil => rfl
  | cons c t ih =>
    rw [fill_cons, fill_cons, ofFillings, ih]
    cases c with
    | char c => simp [CodePoint.fill]
    | half n =>
      have hne : first n ≠ second n := by
        intro heq
        have hcode := toNat_second n
        rw [← heq, toNat_first] at hcode
        omega
      simp [CodePoint.fill, hne, toNat_first]

end RawText

/-! ### Filled pages -/

/-- A page by its chunks, filled. -/
def Page.filled (raw : List RawText) (f : Filling) : Page :=
  ⟨raw.map (RawText.fill f)⟩

namespace Page

variable {f : Filling}

lemma append_filled (raw : List RawText) (t : RawText) (f : Filling) :
    (filled raw f).append (t.fill f) = filled (if t.isEmpty then raw else t :: raw) f := by
  cases t with
  | nil => rfl
  | cons c t => rfl

lemma exists_append_filled (raw : List RawText) (t : Text) : ∃ raw', ∀ f : Filling,
    (filled raw f).append t = filled raw' f :=
  ⟨_, fun f => by rw [← append_filled raw t.raw f, RawText.fill_raw]⟩

lemma trimEnd_filled (raw : List RawText) : ∃ raw', ∀ f : Filling, f.Solid →
    (filled raw f).trimEnd = filled raw' f := by
  induction raw with
  | nil => exact ⟨[], fun _ _ => rfl⟩
  | cons t raw ih =>
    obtain ⟨raw', ih⟩ := ih
    refine ⟨if t.trimEnd = [] then raw' else t.trimEnd :: raw, fun f hf => ?_⟩
    simp only [filled, trimEnd, List.map_cons, trimChunks, RawText.trimEnd_fill hf, List.isEmpty_iff,
      RawText.fill_eq_nil]
    split
    · exact ih f hf
    · rfl

lemma lastLineLength_filled (raw : List RawText) : ∃ n, ∀ f : Filling, f.Solid →
    (filled raw f).lastLineLength = n := by
  induction raw with
  | nil => exact ⟨0, fun _ _ => rfl⟩
  | cons t raw ih =>
    obtain ⟨n, ih⟩ := ih
    refine ⟨if t.contains (.char '\n') then (t.reverse.takeWhile (· ≠ .char '\n')).length
      else (t.reverse.takeWhile (· ≠ .char '\n')).length + n, fun f hf => ?_⟩
    have hreverse : (t.fill f).reverse = RawText.fill f t.reverse := (List.map_reverse).symm
    have hlength (u : RawText) : (u.fill f).length = u.length := List.length_map _
    have hrest : openLength (raw.map (RawText.fill f)) = n := ih f hf
    simp only [filled, lastLineLength, List.map_cons, openLength, hreverse, RawText.takeWhile_fill hf,
      RawText.contains_lineFeed_fill hf, hlength, hrest]

end Page

/-! ### Families of drafts -/

def Draft.onPage (s : Draft) (p : Page) : Draft :=
  { s with page := p }

/-- Drafts for all fillings, which agree in all but the fillings of one raw page. -/
def Family (d : Filling → Draft) : Prop :=
  ∃ (s : Draft) (raw : List RawText), ∀ f : Filling, f.Solid → d f = s.onPage (.filled raw f)

namespace Family

variable {d a b : Filling → Draft} {o : Options}

lemma congr (h : Family a) (heq : ∀ f : Filling, f.Solid → d f = a f) : Family d := by
  obtain ⟨s, raw, h⟩ := h
  exact ⟨s, raw, fun f hf => (heq f hf).trans (h f hf)⟩

lemma map (h : Family d) (g : Draft → Draft) (hg : ∀ s p, g (s.onPage p) = (g s).onPage p) :
    Family fun f => g (d f) := by
  obtain ⟨s, raw, h⟩ := h
  exact ⟨g s, raw, fun f hf => (congrArg g (h f hf)).trans (hg _ _)⟩

lemma ite (h : Family d) (c : Draft → Prop) [DecidablePred c] (hc : ∀ s p, c (s.onPage p) ↔ c s)
    (ha : Family a) (hb : Family b) : Family fun f => if c (d f) then a f else b f := by
  obtain ⟨s, raw, h⟩ := h
  by_cases hs : c s
  · exact ha.congr fun f hf => if_pos (h f hf ▸ (hc _ _).mpr hs)
  · exact hb.congr fun f hf => if_neg (h f hf ▸ fun hc' => hs ((hc _ _).mp hc'))

lemma append (h : Family d) (t : RawText) :
    Family fun f => (d f).onPage ((d f).page.append (t.fill f)) := by
  obtain ⟨s, raw, h⟩ := h
  refine ⟨s, if t.isEmpty then raw else t :: raw, fun f hf => ?_⟩
  simp only [h f hf]
  exact congrArg s.onPage (Page.append_filled raw t f)

lemma trimEnd (h : Family d) : Family fun f => (d f).trimEnd := by
  obtain ⟨s, raw, h⟩ := h
  obtain ⟨raw', hraw⟩ := Page.trimEnd_filled raw
  refine ⟨s, raw', fun f hf => ?_⟩
  simp only [h f hf]
  exact congrArg s.onPage (hraw f hf)

lemma write (h : Family d) (t : RawText) : Family fun f => (d f).write (t.fill f) :=
  (h.append t).map (fun s => { s with separated := false }) fun _ _ => rfl

lemma writeText (h : Family d) (t : Text) : Family fun f => (d f).write t :=
  (h.write t.raw).congr fun f _ => by rw [RawText.fill_raw]

lemma relevel (h : Family d) (g : Levels → Levels) : Family fun f => (d f).relevel g :=
  h.map (·.relevel g) fun _ _ => rfl

lemma newLine (h : Family d) (unit : Text) : Family fun f => (d f).newLine unit := by
  obtain ⟨s, raw, h⟩ := h
  obtain ⟨trimmed, htrimmed⟩ := Page.trimEnd_filled raw
  obtain ⟨ended, hended⟩ := Page.exists_append_filled trimmed (if s.separated then ['\n', '\n'] else ['\n'])
  obtain ⟨indented, hindented⟩ := Page.exists_append_filled ended (s.levels.indentation unit)
  refine ⟨s, indented, fun f hf => ?_⟩
  have hpage : (s.onPage (.filled raw f)).newLine unit =
      s.onPage (((Page.filled raw f).trimEnd.append (if s.separated then ['\n', '\n'] else ['\n'])).append
        (s.levels.indentation unit)) := rfl
  simp only [h f hf, hpage, htrimmed f hf, hended f, hindented f]

lemma wrapBefore (h : Family d) (o : Options) (t : Text) : Family fun f => (d f).wrapBefore o t := by
  obtain ⟨s, raw, hs⟩ := id h
  obtain ⟨n, hn⟩ := Page.lastLineLength_filled raw
  have hlength (f : Filling) (hf : f.Solid) : (d f).page.lastLineLength = n := by
    rw [hs f hf]
    exact hn f hf
  by_cases hlong : o.maxLineLength ≠ 0 ∧ o.maxLineLength < n + t.length
  · refine Family.congr (((h.map (·.note (.wrapped o.maxLineLength t)) fun _ _ => rfl).relevel
      (·.increase .overflow)).newLine o.unit) fun f hf => ?_
    rw [Draft.wrapBefore, hlength f hf, if_pos hlong]
    rfl
  · refine h.congr fun f hf => ?_
    rw [Draft.wrapBefore, hlength f hf, if_neg hlong]

lemma writeWrapped (h : Family d) (o : Options) (t : Text) : Family fun f => (d f).writeWrapped o t :=
  (h.wrapBefore o t).writeText _

lemma keyword (h : Family d) (o : Options) (role : Role) (own t : Text) :
    Family fun f => (d f).keyword o role own t := by
  cases role with
  | clause =>
    exact (((((h.relevel _).relevel _).relevel _).newLine o.unit).relevel _ |>.writeText _).newLine o.unit
  | breaking =>
    simp only [Draft.keyword, Draft.breakingKeyword]
    refine writeText (newLine ?_ o.unit) _
    split
    · exact (h.relevel _).relevel _
    · exact h.relevel _
  | indented => exact (((h.relevel _).relevel _).newLine o.unit).writeText _
  | plain => exact h.writeWrapped o _

lemma openBlock (h : Family d) (o : Options) (t : Text) : Family fun f => (d f).openBlock o t :=
  (((h.newLine o.unit).writeText t).relevel _).newLine o.unit

lemma beforeBracket (h : Family d) : Family fun f => (d f).beforeBracket :=
  h.ite (fun s => s.previous = some .blank ∨ s.previous = some .opening) (fun _ _ => .rfl) h h.trimEnd

lemma opening (h : Family d) (o : Options) (index : Nat) (ts : List Token) (t : Text) :
    Family fun f => (d f).opening o index ts t := by
  have hbefore := (h.relevel Levels.dropOverflow).beforeBracket
  refine hbefore.ite (fun s => 0 < s.inlineDepth) (fun _ _ => .rfl) ?_ ?_
  · exact (hbefore.map (fun s => { s with inlineDepth := s.inlineDepth + 1 }) fun _ _ => rfl).writeText t
  · cases InlineBlock.judge o.inlineLimit ts with
    | fits =>
      exact (hbefore.map (fun s => { s with inlineDepth := 1 }.note (.inlineBlock index)) fun _ _ => rfl).writeText t
    | refused => exact hbefore.openBlock o t
    | unclosed => exact (hbefore.map (·.note (.unclosedBracket index)) fun _ _ => rfl).openBlock o t

lemma closing (h : Family d) (o : Options) (t : Text) : Family fun f => (d f).closing o t := by
  refine h.ite (fun s => 0 < s.inlineDepth) (fun _ _ => .rfl) ?_ ?_
  · exact (h.map (fun s => { s with inlineDepth := InlineBlock.leave s.inlineDepth }) fun _ _ =>
      rfl).trimEnd.writeText _
  · exact ((h.relevel _).newLine o.unit).writeText _

lemma comma (h : Family d) (o : Options) (t : Text) : Family fun f => (d f).comma o t := by
  have hdrop := h.relevel Levels.dropOverflow
  refine hdrop.ite (fun s => 0 < s.inlineDepth ∨ s.inLimit) (fun _ _ => .rfl) (hdrop.trimEnd.writeText _) ?_
  cases o.commaStyle with
  | trailing => exact (hdrop.trimEnd.writeText t).newLine o.unit
  | leading => exact (hdrop.trimEnd.map (fun s => { s with held := t }) fun _ _ => rfl).newLine o.unit

lemma separator (h : Family d) (t : Text) : Family fun f => (d f).separator t := by
  refine (((h.trimEnd.writeText t).append (Text.raw ['\n', '\n'])).map
    (fun s => { s with separated := true }) fun _ _ => rfl).congr fun f _ => ?_
  rw [RawText.fill_raw]
  rfl

lemma operator (h : Family d) (o : Options) (own t : Text) : Family fun f => (d f).operator o own t := by
  simp only [Draft.operator]
  split
  · exact h.comma o t
  split
  · exact h.trimEnd.writeText _
  split
  · exact h.trimEnd.writeText t
  split
  · exact h.separator t
  · exact h.writeWrapped o t

lemma blockComment (h : Family d) (o : Options) (t : Text) : Family fun f => (d f).blockComment o t := by
  obtain ⟨s, raw, h⟩ := h
  have hs : Family fun f => s.onPage (.filled raw f) := ⟨s, raw, fun _ _ => rfl⟩
  refine Family.congr (((hs.newLine o.unit).writeText
    (Comment.reindent (s.levels.indentation o.unit) t)).newLine o.unit) fun f hf => ?_
  rw [h f hf]
  rfl

lemma placed (h : Family d) (o : Options) (index : Nat) (t : Token) (rest : List Token) (value : RawText)
    (used : Nat) : Family fun f => (d f).placed o index t rest (value.fill f) used := by
  obtain ⟨s, raw, h⟩ := h
  have hs : Family fun f => s.onPage (.filled raw f) := ⟨s, raw, fun _ _ => rfl⟩
  have hfree : Family fun f => { s.onPage (.filled raw f) with held := [] } :=
    hs.map (fun s => { s with held := [] }) fun _ _ => rfl
  suffices hplaced : Family fun f => (s.onPage (.filled raw f)).placed o index t rest (value.fill f) used from
    hplaced.congr fun f hf => by rw [h f hf]
  unfold Draft.placed
  cases t.kind with
  | blank | unclassified => exact hs
  | lineComment => exact ((hs.relevel _).writeText _).newLine o.unit
  | blockComment => exact hs.blockComment o t.text
  | keyword role =>
    exact (hfree.keyword o role t.text (s.held ++ t.text)).map
      (fun s => { s with inLimit := Draft.isLimit t.text }) fun _ _ => rfl
  | opening => exact hfree.opening o index (t :: rest) (s.held ++ t.text)
  | closing => exact hfree.closing o (s.held ++ t.text)
  | placeholder =>
    refine ((hfree.map (fun s => { s with used := used }) fun _ _ => rfl).write
      (s.held.raw ++ value ++ Text.raw [' '])).congr fun f _ => ?_
    simp only [RawText.fill_append, RawText.fill_raw]
    rfl
  | operator => exact hfree.operator o t.text (s.held ++ t.text)
  | word | quoted | number => exact hfree.writeWrapped o (s.held ++ t.text)

end Family

/-! ### Runs with raw values -/

namespace Command.RawBindings

variable {b : RawBindings} {o : Options} {d : Filling → Draft}

/-- Options with these bindings, once the halves in the values are filled. -/
def options (b : RawBindings) (o : Options) (f : Filling) : Options :=
  { o with bindings := b.fill f }

end Command.RawBindings

end SqlLayout
