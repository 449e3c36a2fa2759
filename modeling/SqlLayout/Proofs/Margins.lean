import SqlLayout.Proofs.Pieces

/-!
# Moving a comment twice

A comment that was moved to an indentation stays as it is when it is moved there again, unless a line
that has blanks only kept it from losing all of its margin: such a line is empty afterwards and does
not count any more.
-/

namespace SqlLayout

namespace Text

lemma split_append {c : Char} {a : Text} (h : c ∉ a) (b : Text) :
    split c (a ++ b) = (a ++ (split c b).1, (split c b).2) := by
  induction a with
  | nil => rfl
  | cons d a ih =>
    simp only [List.mem_cons, not_or] at h
    rw [List.cons_append, split, ih h.2]
    simp [Ne.symm h.1]

lemma lines_joinLines {first : Text} {later : List Text} (hfirst : '\n' ∉ first)
    (hlater : ∀ l ∈ later, '\n' ∉ l) : lines (joinLines first later) = (first, later) := by
  have htail : split '\n' (later.flatMap ('\n' :: ·)) = ([], later) := by
    induction later with
    | nil => rfl
    | cons l ls ih =>
      rw [List.flatMap_cons, List.cons_append, split, split_append (hlater l (by simp)),
        ih fun k hk => hlater k (List.mem_cons_of_mem _ hk)]
      simp
  rw [lines, joinLines, split_append hfirst, htail, List.append_nil]

lemma not_mem_split (c : Char) (t : Text) :
    c ∉ (split c t).1 ∧ ∀ l ∈ (split c t).2, c ∉ l := by
  induction t with
  | nil => simp [split]
  | cons d t ih =>
    have hcons : split c (d :: t) = if d = c then ([], (split c t).1 :: (split c t).2)
        else (d :: (split c t).1, (split c t).2) := rfl
    rw [hcons]
    by_cases hd : d = c
    · simpa [hd] using ih
    · simpa [hd, Ne.symm hd] using ih

lemma exists_ink_of_lines {t : Text} {c : Char} (ht : t.getLast? = some c) (hc : isBlank c = false)
    (hlater : (lines t).2 ≠ []) : ∃ l ∈ (lines t).2, l.isAllBlank = false := by
  obtain ⟨ks, l, hl⟩ := (List.eq_nil_or_concat (lines t).2).resolve_left hlater
  have htext := joinLines_lines t
  rw [hl, joinLines, List.concat_eq_append, List.flatMap_append, List.flatMap_singleton,
    ← List.append_assoc] at htext
  rw [← htext, List.getLast?_append] at ht
  have hlast : ('\n' :: l).getLast? = some c := by
    cases h : ('\n' :: l).getLast? with
    | none => simp at h
    | some d => simpa [h] using ht
  cases l with
  | nil =>
    obtain rfl : '\n' = c := by simpa using hlast
    exact absurd hc (by decide)
  | cons d l =>
    refine ⟨d :: l, by simp [hl], ?_⟩
    rw [List.getLast?_cons_cons] at hlast
    rw [isAllBlank, List.all_eq_false]
    exact ⟨c, List.mem_of_getLast? hlast, by simp [hc]⟩

end Text

lemma IsBlockComment.exists_ink_of_lines {x : Text} (h : IsBlockComment x) (hlater : (Text.lines x).2 ≠ []) :
    ∃ l ∈ (Text.lines x).2, l.isAllBlank = false := by
  obtain ⟨u, c, hu, hc⟩ := h.solid.exists_concat
  exact Text.exists_ink_of_lines (by rw [hu, List.getLast?_concat]) hc hlater

namespace Comment

lemma commonStart_append (a x y : Text) : commonStart (a ++ x) (a ++ y) = a ++ commonStart x y := by
  induction a with
  | nil => rfl
  | cons c a ih => simp [commonStart, ih]

lemma common_map_append (a : Text) {xs : List Text} (h : xs ≠ []) :
    common (xs.map (a ++ ·)) = a ++ common xs := by
  obtain ⟨x, xs, rfl⟩ := List.exists_cons_of_ne_nil h
  rw [List.map_cons, common, common]
  clear h
  induction xs generalizing x with
  | nil => rfl
  | cons y ys ih => rw [List.map_cons, List.foldl_cons, commonStart_append, ih, List.foldl_cons]

lemma isAllBlank_of_isMargin {l : Text} (h : l.all isMargin = true) : l.isAllBlank = true := by
  simp only [List.all_eq_true, Text.isAllBlank] at h ⊢
  exact fun c hc => isBlank_of_isMargin (h c hc)

lemma not_isMargin_of_ink {l : Text} (h : l.isAllBlank = false) : l.all isMargin = false := by
  rw [Bool.eq_false_iff]
  exact fun hm => by simp [isAllBlank_of_isMargin hm] at h

lemma isAllBlank_trimEnd (t : Text) : (Text.trimEnd t).isAllBlank = t.isAllBlank := by
  obtain ⟨b, hb, ht⟩ := Text.exists_trimEnd_append t
  generalize Text.trimEnd t = x at ht
  subst ht
  have hb' : b.all Text.isBlank = true := hb
  simp [Text.isAllBlank, hb']

section

variable {ls : List Text} {l : Text} (hl : l ∈ ls) (hink : l.isAllBlank = false)
include hl hink

lemma takeWhile_isMargin_eq : l.takeWhile isMargin =
    margin ls ++ (l.drop (margin ls).length).takeWhile isMargin := by
  obtain ⟨k, hk⟩ := margin_prefix hl (not_isMargin_of_ink hink)
  have hall : ∀ c ∈ k, isMargin c = true := fun c hc =>
    List.all_eq_true.mp List.all_takeWhile c (by rw [← hk]; exact List.mem_append_right _ hc)
  have hstop : (l.dropWhile isMargin).takeWhile isMargin = [] := by
    cases hd : l.dropWhile isMargin with
    | nil => rfl
    | cons c r => simp [Text.not_of_dropWhile_eq_cons hd]
  have hsplit : l = margin ls ++ (k ++ l.dropWhile isMargin) := by
    rw [← List.append_assoc, hk, List.takeWhile_append_dropWhile]
  have hdrop : l.drop (margin ls).length = k ++ l.dropWhile isMargin :=
    (congrArg (List.drop (margin ls).length) hsplit).trans List.drop_left
  rw [hdrop, List.takeWhile_append_of_pos hall, hstop, List.append_nil, hk]

lemma ink_drop_margin : Text.isAllBlank (l.drop (margin ls).length) = false := by
  obtain ⟨b, hb, heq⟩ := exists_blank_append_dedent hl
  rw [if_neg (by simp [not_isMargin_of_ink hink])] at heq
  have hb' : b.all Text.isBlank = true := hb
  rw [heq] at hink
  simpa [Text.isAllBlank, hb'] using hink

end

def moved (ind : Text) (ls : List Text) : List Text :=
  (dedent ls).map fun l => Text.trimEnd (ind ++ l)

/-- A line moved to an indentation, without some characters at its start. -/
def movedLine (ind : Text) (n : Nat) (l : Text) : Text :=
  if l.isAllBlank then [] else ind ++ Text.trimEnd (l.drop n)

lemma movedLine_of_blank {ind l : Text} {n : Nat} (h : l.isAllBlank = true) : movedLine ind n l = [] :=
  if_pos h

lemma movedLine_of_ink {ind l : Text} {n : Nat} (h : l.isAllBlank = false) :
    movedLine ind n l = ind ++ Text.trimEnd (l.drop n) :=
  if_neg (by simp [h])

section

variable {ind : Text} (hind : ind.all isMargin = true)
include hind

lemma moved_eq (ls : List Text) : moved ind ls = ls.map (movedLine ind (margin ls).length) := by
  have hblank := isAllBlank_of_isMargin hind
  rw [moved, dedent, List.map_map]
  refine List.map_congr_left fun l hl => ?_
  rw [Function.comp_apply, movedLine]
  cases hink : l.isAllBlank with
  | true =>
    refine Text.trimEnd_eq_nil (Text.isAllBlank_append.mpr ⟨hblank, ?_⟩)
    split
    · rfl
    · exact List.all_eq_true.mpr fun c hc => List.all_eq_true.mp hink c (List.mem_of_mem_drop hc)
  | false =>
    rw [if_neg (by simp [not_isMargin_of_ink hink]), if_neg (by simp),
      Text.trimEnd_append_of_trimEnd_ne_nil]
    intro hnil
    have hdrop := ink_drop_margin hl hink
    rw [← isAllBlank_trimEnd, hnil] at hdrop
    simp [Text.isAllBlank] at hdrop

lemma takeWhile_movedLine {n : Nat} {l : Text} (hl : l.isAllBlank = false)
    (hink : Text.isAllBlank (l.drop n) = false) :
    (movedLine ind n l).takeWhile isMargin = ind ++ (l.drop n).takeWhile isMargin := by
  have hmargin := not_isMargin_of_ink ((isAllBlank_trimEnd _).trans hink)
  obtain ⟨b, -, hb⟩ := Text.exists_trimEnd_append (l.drop n)
  rw [movedLine, if_neg (by simp [hl]),
    List.takeWhile_append_of_pos fun c hc => List.all_eq_true.mp hind c hc]
  congr 1
  generalize Text.trimEnd (l.drop n) = y at hb hmargin
  rw [hb, List.takeWhile_append, if_neg]
  intro hlen
  have hall := (List.takeWhile_prefix isMargin (l := y)).eq_of_length hlen
  rw [← hall, List.all_takeWhile] at hmargin
  simp at hmargin

/-- The margin of the lines with ink goes on behind the margin of all lines like the margin of the
moved lines behind their indentation. -/
lemma exists_margin_moved {ls : List Text} (hls : ls.filter (fun l => !l.isAllBlank) ≠ []) :
    ∃ y, margin (ls.filter fun l => !l.isAllBlank) = margin ls ++ y ∧
      margin (moved ind ls) = ind ++ y := by
  refine ⟨common ((ls.filter fun l => !l.isAllBlank).map fun l =>
    (l.drop (margin ls).length).takeWhile isMargin), ?_, ?_⟩
  · have hself : ((ls.filter fun l => !l.isAllBlank).filter fun l => !l.all isMargin) =
        ls.filter fun l => !l.isAllBlank := by
      refine List.filter_eq_self.mpr fun l hl => ?_
      have hink : l.isAllBlank = false := by simpa using (List.mem_filter.mp hl).2
      simp [not_isMargin_of_ink hink]
    rw [margin_eq_common, hself, ← common_map_append _ (by simpa using hls), List.map_map]
    congr 1
    refine List.map_congr_left fun l hl => ?_
    obtain ⟨hmem, hink⟩ := List.mem_filter.mp hl
    exact takeWhile_isMargin_eq hmem (by simpa using hink)
  · have hkept : ls.filter ((fun l => !l.all isMargin) ∘ movedLine ind (margin ls).length) =
        ls.filter fun l => !l.isAllBlank := by
      refine List.filter_congr fun l hl => ?_
      rw [Function.comp_apply, movedLine]
      cases hink : l.isAllBlank with
      | true => rfl
      | false =>
        have htrim := (isAllBlank_trimEnd _).trans (ink_drop_margin hl hink)
        simp [not_isMargin_of_ink htrim]
    rw [margin_eq_common, moved_eq hind, List.filter_map, hkept,
      ← common_map_append _ (by simpa using hls), List.map_map, List.map_map]
    congr 1
    refine List.map_congr_left fun l hl => ?_
    obtain ⟨hmem, hink⟩ := List.mem_filter.mp hl
    have hink : l.isAllBlank = false := by simpa using hink
    exact takeWhile_movedLine hind hink (ink_drop_margin hmem hink)

lemma moved_moved_iff {ls : List Text} (hls : ls.filter (fun l => !l.isAllBlank) ≠ []) :
    moved ind (moved ind ls) = moved ind ls ↔
      margin (ls.filter fun l => !l.isAllBlank) = margin ls := by
  obtain ⟨y, hink, hmoved⟩ := exists_margin_moved hind hls
  have hagain : ∀ l ∈ ls, l.isAllBlank = false →
      movedLine ind (ind ++ y).length (movedLine ind (margin ls).length l) =
        ind ++ Text.trimEnd ((Text.trimEnd (l.drop (margin ls).length)).drop y.length) := by
    intro l hl hink
    have htrim := (isAllBlank_trimEnd _).trans (ink_drop_margin hl hink)
    have hline : Text.isAllBlank (ind ++ Text.trimEnd (l.drop (margin ls).length)) = false := by
      rw [Bool.eq_false_iff, Ne, Text.isAllBlank_append, htrim]
      simp
    rw [movedLine_of_ink hink, movedLine_of_ink hline, List.length_append, ← List.drop_drop,
      List.drop_left]
  have hnil : margin ls ++ y = margin ls ↔ y = [] := by simp
  rw [moved_eq hind (moved ind ls), hmoved, moved_eq hind ls, List.map_map, hink, hnil, List.map_inj_left]
  constructor
  · intro h
    obtain ⟨l, hl⟩ := List.exists_mem_of_ne_nil _ hls
    obtain ⟨hmem, hl⟩ := List.mem_filter.mp hl
    have hl : l.isAllBlank = false := by simpa using hl
    have heq := h l hmem
    rw [Function.comp_apply, hagain l hmem hl, movedLine_of_ink hl] at heq
    have hcut := congrArg List.length (List.append_cancel_left heq)
    have hpos : Text.trimEnd (l.drop (margin ls).length) ≠ [] := by
      intro hnil
      have htrim := (isAllBlank_trimEnd _).trans (ink_drop_margin hmem hl)
      simp [hnil, Text.isAllBlank] at htrim
    generalize Text.trimEnd (l.drop (margin ls).length) = x at hcut hpos
    obtain ⟨b, -, hb⟩ := Text.exists_trimEnd_append (x.drop y.length)
    have hle := congrArg List.length hb
    have hx := List.length_pos_iff.mpr hpos
    simp only [List.length_append, List.length_drop] at hle
    exact List.length_eq_zero_iff.mp (by omega)
  · rintro rfl l hl
    cases hblank : l.isAllBlank with
    | true => rw [Function.comp_apply, movedLine_of_blank hblank, movedLine_of_blank rfl]
    | false =>
      rw [Function.comp_apply, hagain l hl hblank, movedLine_of_ink hblank, List.length_nil, List.drop_zero,
        Text.trimEnd_trimEnd]

lemma lines_reindent (t : Text) :
    Text.lines (reindent ind t) = (Text.trimEnd (Text.lines t).1, moved ind (Text.lines t).2) := by
  obtain ⟨hfirst, hlater⟩ := Text.not_mem_split '\n' t
  refine Text.lines_joinLines (fun h => hfirst (Text.mem_of_mem_trimEnd h)) fun k hk => ?_
  have hk : k ∈ moved ind (Text.lines t).2 := hk
  rw [moved_eq hind] at hk
  obtain ⟨l, hl, rfl⟩ := List.mem_map.mp hk
  rw [movedLine]
  split
  · simp
  · rw [List.mem_append, not_or]
    refine ⟨fun h => ?_, fun h => hlater l hl (List.mem_of_mem_drop (Text.mem_of_mem_trimEnd h))⟩
    exact absurd (List.all_eq_true.mp hind _ h) (by decide)

/-- A comment that was moved to an indentation stays as it is when it is moved there again exactly if
lines without ink did not count for its margin. -/
lemma reindent_reindent_iff {x : Text} (hx : IsBlockComment x) :
    reindent ind (reindent ind x) = reindent ind x ↔
      margin ((Text.lines x).2.filter fun l => !l.isAllBlank) = margin (Text.lines x).2 := by
  have hjoin : ∀ t, reindent ind t =
      Text.joinLines (Text.trimEnd (Text.lines t).1) (moved ind (Text.lines t).2) := fun _ => rfl
  have hlines : reindent ind (reindent ind x) = reindent ind x ↔
      moved ind (moved ind (Text.lines x).2) = moved ind (Text.lines x).2 := by
    constructor
    · intro h
      have heq := congrArg Text.lines h
      rw [lines_reindent hind, lines_reindent hind] at heq
      exact (Prod.mk.inj heq).2
    · intro h
      rw [hjoin (reindent ind x), lines_reindent hind, h, Text.trimEnd_trimEnd, ← hjoin]
  rw [hlines]
  by_cases hlater : (Text.lines x).2 = []
  · simp [hlater, moved, dedent]
  · obtain ⟨l, hl, hink⟩ := hx.exists_ink_of_lines hlater
    refine moved_moved_iff hind ?_
    exact List.ne_nil_of_mem (List.mem_filter.mpr ⟨hl, by simp [hink]⟩)

end

end Comment

end SqlLayout
