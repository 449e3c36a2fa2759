import Mathlib.Data.List.Chain
import SqlLayout.Proofs.Alike
import SqlLayout.Proofs.Closure
import SqlLayout.Proofs.Margins

/-!
# Clean lines

Wherever the layout begins a line it takes the blanks in front of the line feed away, and an empty line
comes from a statement separator only. So no line of a page ends with blanks, and where the indentation
is blank, an empty line stands directly behind a line that ends with a separator.
-/

namespace SqlLayout

open Lexeme

namespace Text

/-- A text in which only ink and other line feeds stand directly in front of a line feed. -/
def Tidy (t : Text) : Prop :=
  t.IsChain fun c d => d = '\n' → c = '\n' ∨ isBlank c = false

/-- A text without two line feeds side by side. -/
def Dense (t : Text) : Prop :=
  t.IsChain fun c d => c = '\n' → d ≠ '\n'

/-- A text in which only a statement separator stands directly in front of two line feeds. -/
def Sparse (t : Text) : Prop :=
  ∀ a c b, t = a ++ c :: '\n' :: '\n' :: b → c = ';'

def allLines (t : Text) : List Text :=
  (lines t).1 :: (lines t).2

lemma joinLines_cons (first l : Text) (ls : List Text) :
    joinLines first (l :: ls) = first ++ '\n' :: joinLines l ls := by
  simp [joinLines]

lemma not_isBlank_of_getLast?_trimEnd {t : Text} {c : Char} (h : (trimEnd t).getLast? = some c) :
    isBlank c = false := by
  rw [trimEnd, dropEndWhile, List.getLast?_reverse] at h
  have hhead := List.head?_dropWhile_not isBlank t.reverse
  simpa [h] using hhead

section

variable {t u : Text}

lemma isChain_of_not_mem {r : Char → Char → Prop} (hr : ∀ c d, c ≠ '\n' → d ≠ '\n' → r c d)
    (h : '\n' ∉ t) : t.IsChain r := by
  induction t with
  | nil => exact .nil
  | cons c t ih =>
    simp only [List.mem_cons, not_or] at h
    refine (ih h.2).cons fun d hd => hr c d (Ne.symm h.1) ?_
    rintro rfl
    exact h.2 (List.mem_of_mem_head? hd)

lemma tidy_of_not_mem (h : '\n' ∉ t) : t.Tidy :=
  isChain_of_not_mem (fun _ _ _ hd hn => absurd hn hd) h

lemma dense_of_not_mem (h : '\n' ∉ t) : t.Dense :=
  isChain_of_not_mem (fun _ _ hc _ hn => absurd hn hc) h

lemma head?_ne_of_not_mem (h : '\n' ∉ t) : t.head? ≠ some '\n' :=
  fun hhead => h (List.mem_of_mem_head? hhead)

lemma Tidy.append (ht : t.Tidy) (hu : u.Tidy)
    (hseam : u.head? = some '\n' → ∀ c ∈ t.getLast?, isBlank c = false) : Tidy (t ++ u) := by
  refine List.IsChain.append ht hu fun c hc d hd hn => .inr (hseam ?_ c hc)
  rw [← hn]
  exact hd

lemma Tidy.trimEnd (ht : t.Tidy) : t.trimEnd.Tidy := by
  obtain ⟨b, -, hb⟩ := exists_trimEnd_append t
  rw [hb] at ht
  exact ht.left_of_append

lemma Tidy.trim (ht : t.Tidy) : t.trim.Tidy := by
  obtain ⟨b, -, hb⟩ := exists_append_trimStart t
  rw [hb] at ht
  exact Tidy.trimEnd ht.right_of_append

lemma Tidy.trimEnd_append (ht : t.Tidy) (hu : u.Tidy) : Tidy (t.trimEnd ++ u) :=
  ht.trimEnd.append hu fun _ _ hc => not_isBlank_of_getLast?_trimEnd hc

lemma Sparse.left (h : (t ++ u).Sparse) : t.Sparse := by
  intro a c b ht
  exact h a c (b ++ u) (by rw [ht]; simp)

lemma Sparse.right (h : (t ++ u).Sparse) : u.Sparse := by
  intro a c b hu
  exact h (t ++ a) c b (by rw [hu]; simp)

lemma Sparse.trimEnd (h : t.Sparse) : t.trimEnd.Sparse := by
  obtain ⟨b, -, hb⟩ := exists_trimEnd_append t
  rw [hb] at h
  exact h.left

lemma Sparse.trim (h : t.Sparse) : t.trim.Sparse := by
  obtain ⟨b, -, hb⟩ := exists_append_trimStart t
  rw [hb] at h
  exact h.right.trimEnd

lemma Dense.not_pair (h : t.Dense) (a b : Text) : t ≠ a ++ '\n' :: '\n' :: b := by
  rintro rfl
  exact (List.isChain_append_cons_cons.mp h).2.1 rfl rfl

lemma Sparse.append (ht : t.Sparse) (hu : u.Dense)
    (hseam : u.head? = some '\n' → t.getLast? ≠ some '\n') : (t ++ u).Sparse := by
  intro a c b h
  rcases List.append_eq_append_iff.mp h with ⟨w, -, hw⟩ | ⟨w, hw, hrest⟩
  · exact absurd (by rw [hw]; simp) (hu.not_pair (w ++ [c]) b)
  match w with
  | [] => exact absurd hrest.symm (hu.not_pair [c] b)
  | [_] => exact absurd (List.cons.inj hrest).2.symm (hu.not_pair [] b)
  | [d, e] =>
    obtain ⟨-, hrest⟩ := List.cons.inj hrest
    obtain ⟨rfl, rfl⟩ := List.cons.inj hrest
    exact absurd (by rw [hw]; simp) (hseam rfl)
  | d :: e :: f :: w =>
    simp only [List.cons_append, List.cons.injEq] at hrest
    obtain ⟨rfl, rfl, rfl, -⟩ := hrest
    exact ht a c w hw

lemma Sparse.append_pair (ht : t.Sparse) (hlast : t.getLast? = some ';') :
    Sparse (t ++ ['\n', '\n']) := by
  intro a c b h
  rcases List.eq_nil_or_concat b with rfl | ⟨b, d, rfl⟩
  · have hcut : t ++ ['\n', '\n'] = (a ++ [c]) ++ ['\n', '\n'] := by rw [h]; simp
    rw [(List.append_inj' hcut rfl).1, List.getLast?_concat] at hlast
    exact Option.some.inj hlast
  · have hcut : (t ++ ['\n']) ++ ['\n'] = (a ++ c :: '\n' :: '\n' :: b) ++ [d] := by
      rw [List.append_assoc]
      simpa using h
    have hone : Sparse (t ++ ['\n']) := ht.append (.singleton _) fun _ => by simp [hlast]
    exact hone a c b (List.append_inj' hcut rfl).1

end

/-! ### Lines -/

lemma Tidy.lines {first : Text} {later : List Text} (hlines : ∀ l ∈ first :: later, '\n' ∉ l)
    (h : (joinLines first later).Tidy)
    (hlast : ∀ c ∈ (joinLines first later).getLast?, isBlank c = false) :
    ∀ l ∈ first :: later, ∀ c ∈ l.getLast?, isBlank c = false := by
  induction later generalizing first with
  | nil => simpa [joinLines] using hlast
  | cons l ls ih =>
    rw [joinLines_cons] at h hlast
    obtain ⟨-, hrest, hseam⟩ := List.isChain_append.mp h
    refine List.forall_mem_cons.mpr ⟨fun c hc => ?_, ?_⟩
    · refine (hseam c hc '\n' rfl rfl).resolve_left ?_
      rintro rfl
      exact hlines first (by simp) (List.mem_of_getLast? hc)
    · refine ih (fun k hk => hlines k (List.mem_cons_of_mem _ hk)) hrest.tail fun c hc => hlast c ?_
      rw [List.getLast?_append, List.getLast?_cons]
      simp [Option.mem_def.mp hc]

/-- An empty line of a sparse text that does not end with one stands behind a line that ends with a
statement separator. The line feeds in front of the text are those that end the line before. -/
lemma Sparse.lines {p first : Text} {later : List Text} (hp : ∀ c ∈ p, c = '\n')
    (hne : p ++ first ≠ []) (h : (p ++ joinLines first later).Sparse)
    (hlast : (joinLines first later).getLast? ≠ some '\n') :
    (first :: later).IsChain fun k l => l = [] → k.getLast? = some ';' := by
  -- The line feed in front of a line belongs to what a blank line is judged by, so it goes into `p`.
  induction later generalizing p first with
  | nil => exact .singleton _
  | cons l ls ih =>
    rw [joinLines_cons] at h hlast
    refine .cons_cons ?_ (ih (p := ['\n']) (by simp) (by simp) ?_ ?_)
    · rintro rfl
      obtain ⟨m, ms, rfl⟩ : ∃ m ms, ls = m :: ms := by
        cases ls with
        | nil => simp [joinLines] at hlast
        | cons m ms => exact ⟨m, ms, rfl⟩
      obtain ⟨a, c, hac⟩ := (List.eq_nil_or_concat (p ++ first)).resolve_left hne
      have hc : c = ';' := by
        refine h a c (joinLines m ms) ?_
        rw [joinLines_cons, List.nil_append, ← List.append_assoc, hac]
        simp
      subst hc
      cases first with
      | nil =>
        have hmem : ';' ∈ p := by
          rw [List.append_nil] at hac
          simp [hac]
        exact absurd (hp _ hmem) (by decide)
      | cons d first =>
        have hget := congrArg List.getLast? hac
        rw [List.getLast?_append, List.concat_eq_append, List.getLast?_concat] at hget
        simpa using hget
    · have hsuffix : p ++ (first ++ '\n' :: joinLines l ls) = p ++ first ++ (['\n'] ++ joinLines l ls) := by
        simp
      rw [hsuffix] at h
      exact h.right
    · intro hrest
      apply hlast
      rw [List.getLast?_append, List.getLast?_cons, hrest]
      rfl

lemma tidy_joinLines {first : Text} {later : List Text}
    (h : ∀ l ∈ first :: later, '\n' ∉ l ∧ trimEnd l = l) : (joinLines first later).Tidy := by
  induction later generalizing first with
  | nil =>
    rw [joinLines, List.flatMap_nil, List.append_nil]
    exact tidy_of_not_mem (h first (by simp)).1
  | cons l ls ih =>
    have hrest : Tidy ('\n' :: joinLines l ls) :=
      (ih fun k hk => h k (List.mem_cons_of_mem _ hk)).cons fun _ _ _ => .inl rfl
    obtain ⟨hmem, htrim⟩ := h first (by simp)
    rw [joinLines_cons, ← htrim]
    exact (tidy_of_not_mem hmem).trimEnd_append hrest

lemma dense_joinLines {first : Text} {later : List Text} (h : ∀ l ∈ first :: later, '\n' ∉ l)
    (hlater : ∀ l ∈ later, l ≠ []) : (joinLines first later).Dense := by
  induction later generalizing first with
  | nil =>
    rw [joinLines, List.flatMap_nil, List.append_nil]
    exact dense_of_not_mem (h first (by simp))
  | cons l ls ih =>
    have hrest := ih (fun k hk => h k (List.mem_cons_of_mem _ hk)) fun k hk =>
      hlater k (List.mem_cons_of_mem _ hk)
    rw [joinLines_cons]
    refine (dense_of_not_mem (h first (by simp))).append (hrest.cons fun d hd _ => ?_) ?_
    · obtain ⟨c, l, rfl⟩ := List.exists_cons_of_ne_nil (hlater l (by simp))
      rintro rfl
      obtain rfl : c = '\n' := by simpa [joinLines] using hd
      exact h ('\n' :: l) (by simp) (List.mem_cons_self ..)
    · rintro c hc _ - rfl
      exact absurd (List.mem_of_getLast? hc) (h first (by simp))

end Text

/-! ### Tokens -/

lemma Levels.not_mem_indentation {unit : Text} (h : '\n' ∉ unit) (ls : Levels) :
    '\n' ∉ ls.indentation unit := by
  unfold indentation
  intro hmem
  obtain ⟨u, hu, hc⟩ := List.mem_flatten.mp hmem
  rw [List.eq_of_mem_replicate hu] at hc
  exact h hc

namespace Comment

section

variable {ind x : Text} (hind : '\n' ∉ ind)
include hind

lemma not_mem_line_reindent {l : Text}
    (hl : l ∈ Text.trimEnd (Text.lines x).1 :: (dedent (Text.lines x).2).map fun l => Text.trimEnd (ind ++ l)) :
    '\n' ∉ l ∧ Text.trimEnd l = l := by
  obtain ⟨hfirst, hlater⟩ := Text.not_mem_split '\n' x
  rcases List.mem_cons.mp hl with rfl | hl
  · exact ⟨fun h => hfirst (Text.mem_of_mem_trimEnd h), Text.trimEnd_trimEnd _⟩
  obtain ⟨k, hk, rfl⟩ := List.mem_map.mp hl
  refine ⟨fun h => ?_, Text.trimEnd_trimEnd _⟩
  rcases List.mem_append.mp (Text.mem_of_mem_trimEnd h) with h | h
  · exact hind h
  · unfold dedent at hk
    obtain ⟨m, hm, rfl⟩ := List.mem_map.mp hk
    split at h
    · simp at h
    · exact hlater m hm (List.mem_of_mem_drop h)

lemma tidy_reindent : (reindent ind x).Tidy :=
  Text.tidy_joinLines fun _ hl => not_mem_line_reindent hind hl

lemma dense_reindent (hx : ∀ l ∈ (Text.lines x).2, l.isAllBlank = false) : (reindent ind x).Dense := by
  refine Text.dense_joinLines (fun _ hl => (not_mem_line_reindent hind hl).1) fun l hl hnil => ?_
  unfold dedent at hl
  simp only [List.map_map, List.mem_map, Function.comp_apply] at hl
  obtain ⟨k, hk, rfl⟩ := hl
  have hink := ink_drop_margin hk (hx k hk)
  rw [if_neg (by simp [not_isMargin_of_ink (hx k hk)])] at hnil
  have hblank := (isAllBlank_trimEnd _).symm.trans (congrArg Text.isAllBlank hnil)
  have hdrop := (Text.isAllBlank_append.mp hblank).2
  simp [hink] at hdrop

lemma head_reindent (hb : x.startsBlank = false) (hne : x ≠ []) : (reindent ind x).head? ≠ some '\n' := by
  obtain ⟨c, y, rfl⟩ := List.exists_cons_of_ne_nil hne
  have hc : c ≠ '\n' := by
    rintro rfl
    have hblank : Text.isBlank '\n' = false := hb
    exact absurd hblank (by decide)
  have hfirst : (Text.lines (c :: y)).1 = c :: (Text.lines y).1 := by
    rw [Text.lines, Text.split]
    simp [hc, Text.lines]
  have htrim := Text.trimEnd_ne_nil (t := (Text.lines (c :: y)).1) (by rw [hfirst]; exact hb) (by simp [hfirst])
  obtain ⟨d, z, hz⟩ := List.exists_cons_of_ne_nil htrim
  have hd := (not_mem_line_reindent (x := c :: y) hind (List.mem_cons_self ..)).1
  unfold reindent Text.joinLines
  simp only [hz] at hd ⊢
  rintro h
  obtain rfl : d = '\n' := by simpa using h
  simp at hd

end

lemma mem_spaceClosers {t : Text} {c : Char} (h : c ∈ spaceClosers t) : c = ' ' ∨ c ∈ t := by
  fun_induction spaceClosers t with
  | case1 => simp at h
  | case2 cs ih =>
    simp only [List.mem_cons] at h ⊢
    tauto
  | case3 d cs hne ih =>
    simp only [List.mem_cons] at h ⊢
    tauto

lemma not_mem_ofLine {marks : List Text} {t : Text}
    (h : '\n' ∉ Text.dropEndWhile (fun c => c == '\r' || c == '\n') t) : '\n' ∉ ofLine marks t := by
  have hmark : ∀ y, '\n' ∉ y → '\n' ∉ dropMark marks y := by
    intro y hy
    unfold dropMark
    split
    · exact fun hmem => hy (List.mem_of_mem_drop hmem)
    · exact hy
  unfold ofLine
  intro hmem
  simp only [List.mem_append, List.mem_cons, List.not_mem_nil, or_false] at hmem
  rcases hmem with (hmem | hmem) | hmem
  · exact absurd hmem (by decide)
  · rcases mem_spaceClosers hmem with hspace | hbody
    · exact absurd hspace (by decide)
    · exact hmark _ h hbody
  · exact absurd hmem (by decide)

end Comment

lemma Text.exists_take_lineLength (t : Text) :
    ∃ u e : Text, t.take t.lineLength = u ++ e ∧ '\n' ∉ u ∧ ∀ c ∈ e, c = '\r' ∨ c = '\n' := by
  fun_induction Text.lineLength t with
  | case1 => exact ⟨[], [], rfl, by simp, by simp⟩
  | case2 cs => exact ⟨[], ['\n'], rfl, by simp, by simp⟩
  | case3 cs => exact ⟨[], ['\r', '\n'], rfl, by simp, by simp⟩
  | case4 cs hne => exact ⟨[], ['\r'], rfl, by simp, by simp⟩
  | case5 c cs hn _ hr ih =>
    obtain ⟨u, e, htake, hu, he⟩ := ih
    refine ⟨c :: u, e, by rw [List.take_succ_cons, htake]; rfl, ?_, he⟩
    simp only [List.mem_cons, not_or]
    exact ⟨fun h => hn h.symm, hu⟩

lemma Text.not_mem_dropEndWhile_lineLength {x s : Text} (h : x.length = Text.lineLength (x ++ s)) :
    '\n' ∉ Text.dropEndWhile (fun c => c == '\r' || c == '\n') x := by
  obtain ⟨u, e, htake, hu, he⟩ := exists_take_lineLength (x ++ s)
  rw [← h, List.take_left] at htake
  subst htake
  have he' : ∀ c ∈ e.reverse, (c == '\r' || c == '\n') = true := by simpa using he
  rw [dropEndWhile, List.reverse_append, List.dropWhile_append_of_pos he', List.mem_reverse]
  exact fun hmem => hu (List.mem_reverse.mp ((List.dropWhile_suffix _).mem hmem))

lemma Rule.not_isBlank {ctx : Context} {x s : Text} {kind : Kind} (h : Rule ctx x s kind)
    (hb : x.startsBlank = false) (hp : kind ≠ .placeholder) (hk : ∀ role, kind ≠ .keyword role) :
    ∀ c ∈ x, Text.isBlank c = false := by
  cases h with
  | opening hx | closing hx =>
    subst hx
    exact List.all_iff_forall_prop.mp (by decide)
  | index | quotedName | bareName => exact absurd rfl hp
  | number hn =>
    have hchars := numberSize?_chars hn
    rw [List.take_left] at hchars
    intro c hc
    cases x with
    | nil => simp at hc
    | cons d x =>
      rcases List.mem_cons.mp hc with rfl | hc
      · exact hb
      · rcases hchars c hc with hword | rfl
        · exact Text.not_isBlank_of_isWordChar hword
        · decide
  | keyword role => exact absurd rfl (hk role)
  | word _ hword => exact fun c hc => Text.not_isBlank_of_isWordChar (hword c hc)
  | operator _ _ _ _ hs =>
    have hlong : ∀ op ∈ longOperators, ∀ c ∈ op, Text.isBlank c = false :=
      forall_mem_mem_of_all (by decide)
    rcases operator_text hs with hmem | hone
    · exact hlong x hmem
    · obtain ⟨c, rfl⟩ := List.length_eq_one_iff.mp hone
      exact List.forall_mem_singleton.mpr hb

/-! ### What a layout does to its page -/

/-- The texts that a token puts on the page fit: each line of its own does, and a block comment at any
indentation. -/
def Token.Fits (o : Options) (fits : Text → Prop) (t : Token) (c : Text) : Prop :=
  match t.kind with
  | .blank | .unclassified _ | .keyword _ => True
  | .blockComment => ∀ ls : Levels, fits (Comment.reindent (ls.indentation o.unit) t.text)
  | _ => '\n' ∉ c

namespace Draft

/-- A draft whose page comes from the empty one by small changes that write fitting texts only. -/
inductive Drawn (o : Options) (fits : Text → Prop) : Draft → Prop
  | start : Drawn o fits {}
  | keep {s s' : Draft} : Drawn o fits s → s'.page = s.page → s'.separated = s.separated → Drawn o fits s'
  | trimEnd {s : Draft} : Drawn o fits s → Drawn o fits s.trimEnd
  | write {s : Draft} {t : Text} : Drawn o fits s → fits t → Drawn o fits (s.write t)
  | newLine {s : Draft} : Drawn o fits s → Drawn o fits (s.newLine o.unit)
  | separator {s : Draft} {t : Text} : Drawn o fits s → '\n' ∉ t → t.getLast? = some ';' →
      Drawn o fits (s.separator t)

/-- Empty lines stand behind separators only, and where the page counts as separated, its text ends with
a separator. -/
structure Spaced (s : Draft) : Prop where
  sparse : s.page.text.Sparse
  separated : s.separated = true → s.body.getLast? = some ';'

lemma text_separator (s : Draft) (t : Text) :
    (s.separator t).page.text = s.body ++ (t ++ ['\n', '\n']) := by
  unfold separator writeTight write trimEnd body
  simp only [Page.text_append, Page.text_trimEnd, List.append_assoc]

namespace Drawn

variable {o : Options} {fits : Text → Prop} {s : Draft} {t : Text}

lemma tidy (hfits : ∀ t, fits t → t.Tidy ∧ t.head? ≠ some '\n') (hunit : '\n' ∉ o.unit)
    (h : Drawn o fits s) : s.page.text.Tidy := by
  induction h with
  | start => exact .nil
  | keep _ hpage _ ih => rwa [hpage]
  | trimEnd _ ih =>
    unfold Draft.trimEnd
    rw [Page.text_trimEnd]
    exact ih.trimEnd
  | write _ ht ih =>
    obtain ⟨htidy, hhead⟩ := hfits _ ht
    unfold Draft.write
    rw [Page.text_append]
    exact ih.append htidy fun h => absurd h hhead
  | @newLine s _ ih =>
    have hindent := Text.tidy_of_not_mem (s.levels.not_mem_indentation hunit)
    rw [text_newLine]
    apply ih.trimEnd_append
    split
    · exact (hindent.cons fun _ _ _ => .inl rfl).cons fun _ _ _ => .inl rfl
    · exact hindent.cons fun _ _ _ => .inl rfl
  | separator _ ht hlast ih =>
    have hpair : Text.Tidy ['\n', '\n'] := .cons_cons (fun _ => .inl rfl) (.singleton _)
    rw [text_separator]
    refine ih.trimEnd_append ((Text.tidy_of_not_mem ht).append hpair fun _ c hc => ?_)
    obtain rfl : ';' = c := Option.some.inj (hlast.symm.trans hc)
    decide

lemma spaced (hfits : ∀ t, fits t → t.Dense ∧ t.head? ≠ some '\n') (hunit : '\n' ∉ o.unit)
    (hblank : o.unit.isAllBlank = true) (h : Drawn o fits s) : Spaced s := by
  induction h with
  | start => exact ⟨fun a c b h => by simp [Page.empty, Page.text] at h, fun h => by simp at h⟩
  | @keep s s' _ hpage hsep ih =>
    have hbody : s'.body = s.body := (body_tail_of_page hpage).1
    exact ⟨hpage ▸ ih.sparse, by rw [hsep, hbody]; exact ih.separated⟩
  | trimEnd _ ih =>
    refine ⟨?_, by rw [body_trimEnd]; exact ih.separated⟩
    unfold Draft.trimEnd
    rw [Page.text_trimEnd]
    exact ih.sparse.trimEnd
  | write _ ht ih =>
    obtain ⟨hdense, hhead⟩ := hfits _ ht
    refine ⟨?_, fun h => absurd h (by simp [Draft.write])⟩
    unfold Draft.write
    rw [Page.text_append]
    exact ih.sparse.append hdense fun h => absurd h hhead
  | @newLine s _ ih =>
    refine ⟨?_, by rw [(body_tail_newLine hblank s).1]; exact ih.separated⟩
    have hbody : s.body.Sparse := ih.sparse.trimEnd
    have hmem := s.levels.not_mem_indentation hunit
    have hdense := Text.dense_of_not_mem hmem
    have hhead := Text.head?_ne_of_not_mem hmem
    rw [text_newLine]
    split
    · next hsep =>
      rw [← List.append_assoc]
      exact (hbody.append_pair (ih.separated hsep)).append hdense fun h => absurd h hhead
    · refine hbody.append (hdense.cons fun d hd _ hn => hhead (hn ▸ hd)) fun _ hlast => ?_
      exact absurd (Text.not_isBlank_of_getLast?_trimEnd hlast) (by decide)
  | @separator s t _ ht hlast ih =>
    have hbody : s.body.Sparse := ih.sparse.trimEnd
    have htext : Text.Sparse (s.body ++ t) :=
      hbody.append (Text.dense_of_not_mem ht) fun h => absurd h (Text.head?_ne_of_not_mem ht)
    have hend : List.getLast? (s.body ++ t) = some ';' := by rw [List.getLast?_append, hlast]; rfl
    have hpage : (s.separator t).page.text = (s.body ++ t) ++ ['\n', '\n'] := by
      rw [text_separator, List.append_assoc]
    refine ⟨hpage ▸ htext.append_pair hend, fun _ => ?_⟩
    rw [body, hpage, Text.trimEnd_append_blank (by decide)]
    obtain ⟨w, hw⟩ := List.getLast?_eq_some_iff.mp hend
    rw [hw, Text.trimEnd, Text.dropEndWhile]
    simp [show Text.isBlank ';' = false by decide]

section

variable (h : Drawn o fits s) (hline : ∀ t, '\n' ∉ t → fits t)
include h hline

lemma writeSpaced (ht : '\n' ∉ t) : Drawn o fits (s.writeSpaced t) :=
  h.write (hline _ (by simpa using ht))

lemma writeAttached (ht : '\n' ∉ t) : Drawn o fits (s.writeAttached t) :=
  h.trimEnd.writeSpaced hline ht

lemma writeTight (ht : '\n' ∉ t) : Drawn o fits (s.writeTight t) :=
  h.trimEnd.write (hline t ht)

lemma writeWrapped (ht : '\n' ∉ t) : Drawn o fits (s.writeWrapped o t) := by
  apply writeSpaced _ hline ht
  unfold wrapBefore
  split
  · apply newLine
    exact h.keep rfl rfl
  · exact h

lemma keyword (role : Role) (own : Text) (ht : '\n' ∉ Text.collapse t) :
    Drawn o fits (s.keyword o role own t) := by
  cases role with
  | clause =>
    have hout : Drawn o fits (((s.dropOverflow.outdent .continuation).outdent .clause).newLine o.unit) := by
      apply newLine
      exact h.keep rfl rfl
    apply newLine
    apply write _ (hline _ ht)
    exact hout.keep rfl rfl
  | breaking =>
    apply writeSpaced _ hline ht
    apply newLine
    split <;> exact h.keep rfl rfl
  | indented =>
    apply writeSpaced _ hline ht
    apply newLine
    exact h.keep rfl rfl
  | plain => exact h.writeWrapped hline ht

lemma openBlock (ht : '\n' ∉ t) : Drawn o fits (s.openBlock o t) := by
  have hwritten : Drawn o fits ((s.newLine o.unit).write t) := h.newLine.write (hline t ht)
  apply newLine
  exact hwritten.keep rfl rfl

lemma opening (index : Nat) (ts : List Token) (ht : '\n' ∉ t) :
    Drawn o fits (s.opening o index ts t) := by
  have hbefore : Drawn o fits s.beforeBracket := by
    unfold beforeBracket
    split
    · exact h
    · exact h.trimEnd
  rw [opening_eq]
  split
  · apply write _ (hline t ht)
    exact hbefore.keep rfl rfl
  split
  · apply write _ (hline t ht)
    exact hbefore.keep rfl rfl
  · apply openBlock _ hline ht
    exact hbefore.keep rfl rfl
  · apply openBlock _ hline ht
    exact hbefore.keep rfl rfl

lemma closing (ht : '\n' ∉ t) : Drawn o fits (s.closing o t) := by
  unfold Draft.closing
  split
  · apply writeAttached _ hline ht
    exact h.keep rfl rfl
  · apply writeSpaced _ hline ht
    apply newLine
    exact h.keep rfl rfl

lemma comma (ht : '\n' ∉ t) : Drawn o fits (s.comma o t) := by
  have hdrop : Drawn o fits s.dropOverflow := h.keep rfl rfl
  unfold Draft.comma
  dsimp only
  split
  · exact hdrop.writeAttached hline ht
  split
  · exact (hdrop.writeTight hline ht).newLine
  · apply newLine
    exact hdrop.trimEnd.keep rfl rfl

lemma operator {held own : Text} (hheld : '\n' ∉ held) (hown : '\n' ∉ own) :
    Drawn o fits (s.operator o own (held ++ own)) := by
  have ht : '\n' ∉ held ++ own := by
    rw [List.mem_append, not_or]
    exact ⟨hheld, hown⟩
  unfold Draft.operator
  split
  · exact h.comma hline ht
  split
  · exact h.writeAttached hline ht
  split
  · exact h.writeTight hline ht
  split
  · next hsep =>
    subst hsep
    exact h.separator ht List.getLast?_concat
  · exact h.writeWrapped hline ht

lemma placed {token : Token} {c : Text} {used : Nat} (hheld : '\n' ∉ s.held)
    (hchunk : token.chunk o s.used = .ok (c, used)) (ht : token.Fits o fits c) (index : Nat)
    (rest : List Token) : Drawn o fits (s.placed o index token rest c used) := by
  have hfree : Drawn o fits { s with held := [] } := h.keep rfl rfl
  have happend : ∀ x : Text, '\n' ∉ x → '\n' ∉ s.held ++ x := by
    intro x hx
    rw [List.mem_append, not_or]
    exact ⟨hheld, hx⟩
  unfold Token.Fits at ht
  unfold Token.chunk at hchunk
  unfold Draft.placed
  cases hk : token.kind with
  | blank | unclassified => exact h
  | lineComment =>
    simp only [hk] at hchunk ht
    obtain ⟨rfl, -⟩ := Prod.mk.inj (Except.ok.inj hchunk)
    apply newLine
    apply write _ (hline _ ht)
    exact h.keep rfl rfl
  | blockComment =>
    simp only [hk] at ht
    exact (h.newLine.write (ht _)).newLine
  | keyword role =>
    have hcollapse : '\n' ∉ Text.collapse (s.held ++ token.text) := by
      intro hmem
      rcases Text.mem_collapse hmem with h | h
      · exact absurd h (by decide)
      · exact absurd h.2 (by decide)
    exact (hfree.keyword hline role _ hcollapse).keep rfl rfl
  | opening =>
    simp only [hk] at hchunk ht
    obtain ⟨rfl, -⟩ := Prod.mk.inj (Except.ok.inj hchunk)
    exact hfree.opening hline _ _ (happend _ ht)
  | closing =>
    simp only [hk] at hchunk ht
    obtain ⟨rfl, -⟩ := Prod.mk.inj (Except.ok.inj hchunk)
    exact hfree.closing hline (happend _ ht)
  | placeholder =>
    simp only [hk] at ht
    apply writeSpaced _ hline (happend _ ht)
    exact h.keep rfl rfl
  | operator =>
    simp only [hk] at hchunk ht
    obtain ⟨rfl, -⟩ := Prod.mk.inj (Except.ok.inj hchunk)
    exact hfree.operator hline hheld ht
  | word | quoted | number =>
    simp only [hk] at hchunk ht
    obtain ⟨rfl, -⟩ := Prod.mk.inj (Except.ok.inj hchunk)
    exact hfree.writeWrapped hline (happend _ ht)

end

end Drawn

lemma not_mem_heldAfter {o : Options} {s : Draft} {t : Token} {x : Char} (hx : x ≠ ',') (h : x ∉ s.held) :
    x ∉ s.heldAfter o t := by
  unfold heldAfter
  cases hk : t.kind with
  | blank | lineComment | blockComment | unclassified => exact h
  | operator =>
    dsimp only
    split
    · simp [h, hx]
    · exact List.not_mem_nil
  | _ => exact List.not_mem_nil

/-- The page of a run comes about by small changes that write fitting texts. -/
lemma Drawn.run {o : Options} {fits : Text → Prop} (hline : ∀ t, '\n' ∉ t → fits t) {ts : List Token}
    {s s' : Draft} {index : Nat} {cs : List Text} (h : Drawn o fits s) (hheld : '\n' ∉ s.held)
    (hrun : s.run o index ts = (s', none)) (hcs : chunks o s.used ts = .ok cs)
    (hts : ∀ p ∈ ts.zip cs, p.1.Fits o fits p.2) : Drawn o fits s' := by
  induction ts generalizing s index cs with
  | nil =>
    obtain ⟨rfl, -⟩ := Prod.mk.inj hrun
    exact h
  | cons t ts ih =>
    obtain ⟨c, used, ds, hc, hds, rfl⟩ := chunks_cons hcs
    cases hstep : s.step o index t ts with
    | error e => simp [Draft.run, hstep] at hrun
    | ok s₁ =>
      rw [Draft.run, hstep] at hrun
      obtain ⟨c', used', hc', rfl⟩ := exists_placed_of_step hstep
      obtain ⟨rfl, rfl⟩ := Prod.mk.inj (Except.ok.inj (hc.symm.trans hc'))
      have ht : t.Fits o fits c := hts (t, c) (List.mem_cons_self ..)
      have hplaced := h.placed hline hheld hc ht index ts
      have hstepped : Drawn o fits { s.placed o index t ts c used with previous := some t.kind } :=
        hplaced.keep rfl rfl
      have hheld' : '\n' ∉ (s.placed o index t ts c used).held := by
        rw [held_placed]
        exact not_mem_heldAfter (by decide) hheld
      have hds' : chunks o (s.placed o index t ts c used).used ts = .ok ds := by
        rw [used_placed hc]
        exact hds
      exact ih hstepped hheld' hrun hds' fun p hp => hts p (List.mem_cons_of_mem _ hp)

end Draft

lemma exists_chunk_of_zip {o : Options} {used : Nat} {ts : List Token} {cs : List Text}
    (h : chunks o used ts = .ok cs) : ∀ p ∈ ts.zip cs, ∃ m n, p.1.chunk o m = .ok (p.2, n) := by
  induction ts generalizing used cs with
  | nil => simp
  | cons t ts ih =>
    obtain ⟨c, used', ds, hc, hds, rfl⟩ := chunks_cons h
    exact List.forall_mem_cons.mpr ⟨⟨used, used', hc⟩, ih hds⟩

lemma Lexed.fits {ctx : Context} {x s : Text} {l : Lexeme} (h : Lexed ctx x s l) {o : Options}
    {fits : Text → Prop} {t : Token} (htext : t.text = x) (hkind : t.kind = l.kind) {c : Text} {m n : Nat}
    (hchunk : t.chunk o m = .ok (c, n)) (hquoted : t.kind = .quoted → '\n' ∉ t.text)
    (hplaceholder : t.kind = .placeholder → '\n' ∉ c)
    (hcomment : IsBlockComment t.text → t.kind = .blockComment →
      ∀ ls : Levels, fits (Comment.reindent (ls.indentation o.unit) t.text)) : t.Fits o fits c := by
  subst htext
  have hrule : t.kind ≠ .blank → t.kind.isComment = false → t.kind ≠ .quoted → t.kind ≠ .placeholder →
      (∀ role, t.kind ≠ .keyword role) → '\n' ∉ t.text := by
    intro hb hc hq hp hk hmem
    rw [hkind] at hb hc hq hp hk
    rcases h.content hb hc with ⟨hq', -⟩ | ⟨-, hr⟩
    · exact hq hq'
    · have hink := hr.not_isBlank (h.solid hb hc).head hp hk '\n' hmem
      exact absurd hink (by decide)
  unfold Token.chunk at hchunk
  unfold Token.Fits
  cases hk : t.kind with
  | blank | unclassified | keyword => trivial
  | placeholder => exact hplaceholder hk
  | blockComment =>
    have hproper := h.proper rfl hkind
    unfold Token.Proper at hproper
    rw [hk] at hproper
    exact hcomment hproper hk
  | lineComment =>
    simp only [hk] at hchunk
    obtain ⟨rfl, -⟩ := Prod.mk.inj (Except.ok.inj hchunk)
    rw [hk] at hkind
    rcases h.cases with ⟨hl, -⟩ | ⟨-, -, hlen⟩ | ⟨hl, -⟩ | ⟨hl, -⟩ | ⟨hp, hl⟩
    · simp [← hkind] at hl
    · exact Comment.not_mem_ofLine (Text.not_mem_dropEndWhile_lineLength hlen)
    · simp [← hkind] at hl
    · simp [← hkind] at hl
    · have hcases := (Rule.of_plain hp hl h.size h.ne_nil).kind_cases
      simp [← hkind, Kind.isComment] at hcases
  | quoted =>
    simp only [hk] at hchunk
    obtain ⟨rfl, -⟩ := Prod.mk.inj (Except.ok.inj hchunk)
    exact hquoted hk
  | opening | closing | operator | word | number =>
    simp only [hk] at hchunk
    obtain ⟨rfl, -⟩ := Prod.mk.inj (Except.ok.inj hchunk)
    exact hrule (by simp [hk]) (by simp [hk, Kind.isComment]) (by simp [hk]) (by simp [hk]) (by simp [hk])

namespace Text

lemma not_mem_of_mem_allLines {t l : Text} (h : l ∈ t.allLines) : '\n' ∉ l := by
  obtain ⟨hfirst, hlater⟩ := not_mem_split '\n' t
  rcases List.mem_cons.mp h with rfl | h
  · exact hfirst
  · exact hlater l h

lemma eq_nil_of_first_line {t : Text} (hb : t.startsBlank = false) (h : (lines t).1 = []) : t = [] := by
  cases t with
  | nil => rfl
  | cons c t =>
    by_cases hc : c = '\n'
    · subst hc
      have hblank : isBlank '\n' = false := hb
      exact absurd hblank (by decide)
    · rw [lines, split] at h
      simp [hc] at h

lemma startsBlank_trim (t : Text) : (trim t).startsBlank = false := by
  obtain ⟨b, -, hb⟩ := exists_trimEnd_append (trimStart t)
  have hhead := startsBlank_trimStart t
  unfold trim
  generalize trimEnd (trimStart t) = x at hb
  rw [hb] at hhead
  cases x with
  | nil => rfl
  | cons c x => exact hhead

lemma Tidy.allLines {t : Text} (h : t.Tidy) (hlast : ∀ c ∈ t.getLast?, isBlank c = false) :
    ∀ l ∈ t.allLines, ∀ c ∈ l.getLast?, isBlank c = false := by
  refine Tidy.lines (fun l hl => not_mem_of_mem_allLines hl) ?_ ?_
  · rwa [joinLines_lines]
  · rwa [joinLines_lines]

lemma Sparse.allLines {t : Text} (h : t.Sparse) (hb : t.startsBlank = false)
    (hlast : ∀ c ∈ t.getLast?, isBlank c = false) :
    t.allLines.IsChain fun k l => l = [] → k.getLast? = some ';' := by
  by_cases hne : (Text.lines t).1 = []
  · rw [eq_nil_of_first_line hb hne]
    exact .singleton _
  · refine Sparse.lines (p := []) (by simp) (by simpa using hne) ?_ fun hend => ?_
    · rwa [List.nil_append, joinLines_lines]
    · rw [joinLines_lines] at hend
      exact absurd (hlast '\n' hend) (by decide)

end Text

lemma exists_draft_of_layout {o : Options} {ts : List Token} {text : Text} (h : layout o ts = .ok text) :
    ∃ s, Draft.run o {} 0 ts = (s, none) ∧ text = s.text := by
  unfold layout at h
  split at h
  · next s hrun => exact ⟨s, hrun, (Except.ok.inj h).symm⟩
  · simp at h

/-- The page of a query is drawn from fitting texts if its strings, placeholders and block comments fit. -/
lemma drawn_of_reads {o : Options} {fits : Text → Prop} (hline : ∀ t, '\n' ∉ t → fits t)
    {ctx : Context} {p : Position} {query : Text} {ts : List Token}
    (h : Reads Dialect.standard.lexicon ctx p query ts)
    (hquoted : ∀ t ∈ ts, t.kind = .quoted → '\n' ∉ t.text) {cs : List Text}
    (hcs : chunks o 0 ts = .ok cs) (hplaceholders : ∀ p ∈ ts.zip cs, p.1.kind = .placeholder → '\n' ∉ p.2)
    (hcomments : ∀ t ∈ ts, IsBlockComment t.text → t.kind = .blockComment →
      ∀ ls : Levels, fits (Comment.reindent (ls.indentation o.unit) t.text))
    {s : Draft} (hrun : Draft.run o {} 0 ts = (s, none)) : Draft.Drawn o fits s := by
  refine Draft.Drawn.run hline .start (by simp) hrun hcs fun p hp => ?_
  have hmem : p.1 ∈ ts := (List.of_mem_zip hp).1
  obtain ⟨m, n, hchunk⟩ := exists_chunk_of_zip hcs p hp
  obtain ⟨_, _, l, hlexed, hkind⟩ := h.exists_lexed p.1 hmem
  exact hlexed.fits rfl hkind.symm hchunk (hquoted p.1 hmem) (hplaceholders p hp) (hcomments p.1 hmem)

/-- The text of a layout is clean. It begins and ends with ink and none of its lines ends with a blank,
if the unit of indentation, the strings and the texts of the placeholders have no line feeds. If
moreover the unit is blank and no line of a block comment is, then an empty line stands directly behind
a line that ends with a statement separator, and no two empty lines stand side by side. -/
theorem layout_has_clean_lines (o : Options) (hunit : '\n' ∉ o.unit) (query : Text) (ts : List Token)
    (hts : tokenize .standard query = .ok ts) (hquoted : ∀ t ∈ ts, t.kind = .quoted → '\n' ∉ t.text)
    (cs : List Text) (hcs : chunks o 0 ts = .ok cs)
    (hplaceholders : ∀ p ∈ ts.zip cs, p.1.kind = .placeholder → '\n' ∉ p.2)
    (text : Text) (h : layout o ts = .ok text) :
    text.startsBlank = false ∧ (∀ c ∈ text.getLast?, Text.isBlank c = false) ∧
    (∀ l ∈ text.allLines, ∀ c ∈ l.getLast?, Text.isBlank c = false) ∧
    (o.unit.isAllBlank = true →
      (∀ t ∈ ts, t.kind = .blockComment → ∀ l ∈ t.text.allLines, l.isAllBlank = false) →
      (text.allLines[0]? = some [] → text = []) ∧
      (∀ i, text.allLines[i + 1]? = some [] →
        ∃ k, text.allLines[i]? = some k ∧ k.getLast? = some ';') ∧
      ∀ i, text.allLines[i]? = some [] → text.allLines[i + 1]? ≠ some []) := by
  have hreads := (tokensFrom_eq_ok_iff Dialect.standard_substantial).mp hts
  obtain ⟨s, hrun, rfl⟩ := exists_draft_of_layout h
  have hhead := Text.startsBlank_trim s.page.text
  have hlast : ∀ c ∈ s.text.getLast?, Text.isBlank c = false := fun c hc =>
    Text.not_isBlank_of_getLast?_trimEnd hc
  have hindent := fun ls : Levels => ls.not_mem_indentation hunit
  have htidy : s.page.text.Tidy := by
    have hdrawn : Draft.Drawn o (fun t => t.Tidy ∧ t.head? ≠ some '\n') s := by
      refine drawn_of_reads (fun t ht => ?_) hreads hquoted hcs hplaceholders (fun t _ hcomment _ ls => ?_) hrun
      · exact ⟨Text.tidy_of_not_mem ht, Text.head?_ne_of_not_mem ht⟩
      · exact ⟨Comment.tidy_reindent (hindent ls),
          Comment.head_reindent (hindent ls) hcomment.solid.head hcomment.solid.ne_nil⟩
    exact hdrawn.tidy (fun _ h => h) hunit
  refine ⟨hhead, hlast, htidy.trim.allLines hlast, fun hblank hcomments => ?_⟩
  have hspaced : Draft.Spaced s := by
    have hdrawn : Draft.Drawn o (fun t => t.Dense ∧ t.head? ≠ some '\n') s := by
      refine drawn_of_reads (fun t ht => ?_) hreads hquoted hcs hplaceholders (fun t ht hcomment hk ls => ?_) hrun
      · exact ⟨Text.dense_of_not_mem ht, Text.head?_ne_of_not_mem ht⟩
      · have hlines := hcomments t ht hk
        exact ⟨Comment.dense_reindent (hindent ls) fun l hl => hlines l (List.mem_cons_of_mem _ hl),
          Comment.head_reindent (hindent ls) hcomment.solid.head hcomment.solid.ne_nil⟩
    exact hdrawn.spaced (fun _ h => h) hunit hblank
  have hchain := hspaced.sparse.trim.allLines hhead hlast
  have hbehind : ∀ i, s.text.allLines[i + 1]? = some [] →
      ∃ k, s.text.allLines[i]? = some k ∧ k.getLast? = some ';' := by
    intro i hi
    obtain ⟨hlt, hnil⟩ := List.getElem?_eq_some_iff.mp hi
    exact ⟨_, List.getElem?_eq_getElem (by omega), List.isChain_iff_getElem.mp hchain i hlt hnil⟩
  refine ⟨fun h => Text.eq_nil_of_first_line hhead (Option.some.inj h), hbehind, fun i hi hnext => ?_⟩
  obtain ⟨k, hk, hsep⟩ := hbehind i hnext
  obtain rfl : [] = k := Option.some.inj (hi.symm.trans hk)
  simp at hsep

theorem layout_has_clean_lines_of_comment : ∃ ts cs text,
    tokenize .standard ['1', ';', '/', '*', ' ', '\n', ' ', 'b', '*', '/', '?'] = .ok ts ∧
      chunks {} 0 ts = .ok cs ∧ layout {} ts = .ok text ∧ text.allLines[1]? = some [] ∧
      (∀ l ∈ text.allLines, ∀ c ∈ l.getLast?, Text.isBlank c = false) ∧
      ∃ k, text.allLines[0]? = some k ∧ k.getLast? = some ';' := by
  have hreads : ∃ ts cs text, Reads Dialect.standard.lexicon .start .start
      (['1'] ++ ([';'] ++ (['/', '*', ' ', '\n', ' ', 'b', '*', '/'] ++ (['?'] ++ [])))) ts ∧
      chunks {} 0 ts = .ok cs ∧ layout {} ts = .ok text ∧ text.allLines[1]? = some [] ∧
      (∀ t ∈ ts, t.kind = .quoted → '\n' ∉ t.text) ∧
      (∀ p ∈ ts.zip cs, p.1.kind = .placeholder → '\n' ∉ p.2) ∧
      ∀ t ∈ ts, t.kind = .blockComment → ∀ l ∈ t.text.allLines, l.isAllBlank = false := by
    refine ⟨_, _, _, .cons rfl rfl (by simp) (.cons (lexeme_mark (.inr rfl) _ _) rfl (by simp)
      (.cons rfl rfl (by simp) (.cons rfl rfl (by simp) (.nil _ _)))), rfl, rfl, rfl, ?_, ?_, ?_⟩
    · decide
    · decide
    · decide
  obtain ⟨ts, cs, text, hreads, hcs, hlayout, hempty, hquoted, hplaceholders, hcomments⟩ := hreads
  have hts := tokensFrom_of_reads hreads
  obtain ⟨-, -, hlines, hspaced⟩ :=
    layout_has_clean_lines {} (by decide) _ ts hts hquoted cs hcs hplaceholders text hlayout
  exact ⟨ts, cs, text, hts, hcs, hlayout, hempty, hlines, (hspaced rfl hcomments).2.1 0 hempty⟩

/-- Where the unit of indentation is no blank, a comma held back behind a separator begins another line
apart, and the line before holds the indentation only. -/
theorem layout_sets_held_comma_apart : ¬∀ (o : Options), '\n' ∉ o.unit → ∀ (query : Text) (ts : List Token),
    tokenize .standard query = .ok ts → (∀ t ∈ ts, t.kind = .quoted → '\n' ∉ t.text) →
    ∀ cs, chunks o 0 ts = .ok cs → (∀ p ∈ ts.zip cs, p.1.kind = .placeholder → '\n' ∉ p.2) →
    ∀ text, layout o ts = .ok text →
    (∀ t ∈ ts, t.kind = .blockComment → ∀ l ∈ t.text.allLines, l.isAllBlank = false) →
    ∀ i, text.allLines[i + 1]? = some [] → ∃ k, text.allLines[i]? = some k ∧ k.getLast? = some ';' := by
  intro h
  have hquery : ∃ ts cs, Reads Dialect.standard.lexicon .start .start
      (['('] ++ ([';'] ++ ([','] ++ ([')'] ++ [])))) ts ∧ chunks { unit := ['x'] } 0 ts = .ok cs ∧
      layout { unit := ['x'] } ts = .ok "(\nx;\n\nx\n\n,)".toList ∧
      (∀ t ∈ ts, t.kind = .quoted → '\n' ∉ t.text) ∧
      (∀ p ∈ ts.zip cs, p.1.kind = .placeholder → '\n' ∉ p.2) ∧
      ∀ t ∈ ts, t.kind = .blockComment → ∀ l ∈ t.text.allLines, l.isAllBlank = false := by
    refine ⟨_, _, .cons rfl rfl (by simp) (.cons (lexeme_mark (.inr rfl) _ _) rfl (by simp)
      (.cons (lexeme_comma _ _) rfl (by simp) (.cons rfl rfl (by simp) (.nil _ _)))), rfl, rfl, ?_, ?_, ?_⟩
    · decide
    · decide
    · decide
  obtain ⟨ts, cs, hreads, hcs, hlayout, hquoted, hplaceholders, hcomments⟩ := hquery
  obtain ⟨k, hk, hsep⟩ := h { unit := ['x'] } (by decide) _ ts (tokensFrom_of_reads hreads) hquoted cs hcs
    hplaceholders _ hlayout hcomments 3 rfl
  obtain rfl : ['x'] = k := by simpa [Text.allLines, Text.lines, Text.split] using hk
  simp at hsep

end SqlLayout
