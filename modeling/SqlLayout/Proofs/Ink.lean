import Mathlib.Tactic.Lemma
import SqlLayout.Layout.Comment
import SqlLayout.Layout.Levels
import SqlLayout.Layout.Page

/-!
# Ink

The ink of a text is what is left of it without its blanks. Trimming, collapsing and indenting move
blanks only, so they keep the ink.
-/

namespace SqlLayout

namespace Text

/-- The characters of a text that are not blank, in order. -/
def ink (t : Text) : Text :=
  t.filter fun c => !isBlank c

@[simp] lemma ink_nil : ink [] = [] := rfl

@[simp] lemma ink_append (a b : Text) : ink (a ++ b) = ink a ++ ink b :=
  List.filter_append ..

lemma ink_eq_nil {t : Text} (h : t.isAllBlank = true) : ink t = [] := by
  simpa [ink, List.filter_eq_nil_iff, isAllBlank] using h

lemma isAllBlank_append {a b : Text} :
    (a ++ b).isAllBlank = true ↔ a.isAllBlank = true ∧ b.isAllBlank = true := by
  simp [isAllBlank]

lemma exists_trimEnd_append (t : Text) : ∃ b : Text, b.isAllBlank = true ∧ t = trimEnd t ++ b := by
  refine ⟨(t.reverse.takeWhile isBlank).reverse, ?_, ?_⟩
  · simp [isAllBlank]
  · rw [trimEnd, dropEndWhile, ← List.reverse_append, List.takeWhile_append_dropWhile,
      List.reverse_reverse]

lemma mem_of_mem_trimEnd {c : Char} {t : Text} (h : c ∈ trimEnd t) : c ∈ t := by
  obtain ⟨b, -, hb⟩ := exists_trimEnd_append t
  rw [hb]
  exact List.mem_append_left _ h

lemma exists_append_trimStart (t : Text) :
    ∃ b : Text, b.isAllBlank = true ∧ t = b ++ trimStart t :=
  ⟨t.takeWhile isBlank, by simp [isAllBlank], List.takeWhile_append_dropWhile.symm⟩

lemma trimEnd_append_of_trimEnd_eq_nil {a b : Text} (h : trimEnd b = []) :
    trimEnd (a ++ b) = trimEnd a := by
  rw [trimEnd, dropEndWhile, List.reverse_eq_nil_iff] at h
  rw [trimEnd, dropEndWhile, List.reverse_append, List.dropWhile_append, h]
  rfl

lemma trimEnd_append_of_trimEnd_ne_nil {a b : Text} (h : trimEnd b ≠ []) :
    trimEnd (a ++ b) = a ++ trimEnd b := by
  rw [trimEnd, dropEndWhile, Ne, List.reverse_eq_nil_iff] at h
  rw [trimEnd, dropEndWhile, List.reverse_append, List.dropWhile_append]
  simp [h, trimEnd, dropEndWhile]

@[simp] lemma ink_trimEnd (t : Text) : ink (trimEnd t) = ink t := by
  obtain ⟨b, hb, ht⟩ := exists_trimEnd_append t
  have h := congrArg ink ht
  rw [ink_append, ink_eq_nil hb, List.append_nil] at h
  exact h.symm

@[simp] lemma ink_trim (t : Text) : ink (trim t) = ink t := by
  obtain ⟨b, hb, ht⟩ := exists_append_trimStart t
  have h := congrArg ink ht
  rw [ink_append, ink_eq_nil hb, List.nil_append] at h
  rw [trim, ink_trimEnd, h]

@[simp] lemma ink_collapse (t : Text) : ink (collapse t) = ink t := by
  fun_induction collapse t with
  | case1 => rfl
  | case2 c cs hc hs ih => simp_all [ink]
  | case3 c cs hc hs ih =>
    have hsp : isBlank ' ' = true := by decide
    simp_all [ink]
  | case4 c cs hc ih => simp_all [ink]

end Text

namespace Text

lemma joinLines_lines (t : Text) : joinLines (lines t).1 (lines t).2 = t := by
  induction t with
  | nil => rfl
  | cons c cs ih =>
    simp only [lines, split] at ih ⊢
    by_cases hc : c = '\n'
    · simpa [hc, joinLines] using ih
    · simpa [hc, joinLines] using ih

lemma ink_joinLines (first : Text) (later : List Text) :
    ink (joinLines first later) = ink first ++ later.flatMap ink := by
  have hn : ink ['\n'] = [] := by decide
  rw [joinLines, ink_append]
  congr 1
  induction later with
  | nil => rfl
  | cons l ls ih =>
    rw [List.flatMap_cons, ink_append, ih, List.flatMap_cons, ← List.singleton_append, ink_append, hn,
      List.nil_append]

end Text

namespace Comment

lemma commonStart_prefix_left (a b : Text) : commonStart a b <+: a := by
  fun_induction commonStart a b <;> simp_all

lemma commonStart_prefix_right (a b : Text) : commonStart a b <+: b := by
  fun_induction commonStart a b <;> simp_all

lemma prefix_commonStart_iff {m a b : Text} : m <+: commonStart a b ↔ m <+: a ∧ m <+: b := by
  constructor
  · intro h
    exact ⟨h.trans (commonStart_prefix_left a b), h.trans (commonStart_prefix_right a b)⟩
  · rintro ⟨ha, hb⟩
    induction m generalizing a b with
    | nil => exact List.nil_prefix
    | cons c m ih =>
      obtain ⟨a', rfl, ha'⟩ := List.cons_prefix_iff.mp ha
      obtain ⟨b', rfl, hb'⟩ := List.cons_prefix_iff.mp hb
      rw [commonStart, if_pos rfl, List.cons_prefix_cons]
      exact ⟨rfl, ih ha' hb'⟩

/-- The longest text that all the given texts begin with. -/
def common : List Text → Text
  | [] => []
  | m :: ms => ms.foldl commonStart m

lemma prefix_common_iff {m : Text} {xs : List Text} (h : xs ≠ []) :
    m <+: common xs ↔ ∀ x ∈ xs, m <+: x := by
  obtain ⟨x, xs, rfl⟩ := List.exists_cons_of_ne_nil h
  rw [common]
  clear h
  induction xs generalizing x with
  | nil => simp
  | cons y ys ih => simp [ih, prefix_commonStart_iff, and_assoc]

lemma prefix_takeWhile_iff {p : Char → Bool} {m l : Text} :
    m <+: l.takeWhile p ↔ m.all p = true ∧ m <+: l := by
  constructor
  · intro h
    have hall : m.all p = true :=
      List.all_eq_true.mpr fun c hc => List.all_eq_true.mp List.all_takeWhile c (h.subset hc)
    exact ⟨hall, h.trans (List.takeWhile_prefix p)⟩
  · rintro ⟨hall, k, rfl⟩
    rw [List.takeWhile_append_of_pos (List.all_eq_true.mp hall)]
    exact List.prefix_append m _

lemma margin_eq_common (ls : List Text) :
    margin ls = common ((ls.filter fun l => !l.all isMargin).map (·.takeWhile isMargin)) := rfl

/-- The margin is the longest text of spaces and tabs that all lines with content begin with. -/
lemma prefix_margin_iff {ls : List Text} (h : ∃ l ∈ ls, l.all isMargin = false) {m : Text} :
    m <+: margin ls ↔ m.all isMargin = true ∧ ∀ l ∈ ls, l.all isMargin = false → m <+: l := by
  obtain ⟨k, hk, hcontent⟩ := h
  have hlines : ((ls.filter fun l => !l.all isMargin).map (·.takeWhile isMargin)) ≠ [] :=
    List.ne_nil_of_mem (List.mem_map_of_mem (List.mem_filter.mpr ⟨hk, by simp [hcontent]⟩))
  rw [margin_eq_common, prefix_common_iff hlines, List.forall_mem_map]
  simp only [List.mem_filter, Bool.not_eq_true', prefix_takeWhile_iff]
  constructor
  · intro hall
    exact ⟨(hall k ⟨hk, hcontent⟩).1, fun l hl hc => (hall l ⟨hl, hc⟩).2⟩
  · rintro ⟨hm, hall⟩ l ⟨hl, hc⟩
    exact ⟨hm, hall l hl hc⟩

lemma margin_prefix {ls : List Text} {l : Text} (hl : l ∈ ls) (hc : l.all isMargin = false) :
    margin ls <+: l.takeWhile isMargin := by
  obtain ⟨hm, hall⟩ := (prefix_margin_iff ⟨l, hl, hc⟩).mp (List.prefix_refl (margin ls))
  exact prefix_takeWhile_iff.mpr ⟨hm, hall l hl hc⟩

lemma isBlank_of_isMargin {c : Char} (h : isMargin c = true) : Text.isBlank c = true := by
  simp only [isMargin, Bool.or_eq_true, beq_iff_eq] at h
  rcases h with rfl | rfl <;> decide

lemma exists_blank_append_dedent {ls : List Text} {l : Text} (hl : l ∈ ls) :
    ∃ b : Text, b.isAllBlank = true ∧
      l = b ++ if l.all isMargin then [] else l.drop (margin ls).length := by
  by_cases hc : l.all isMargin = true
  · refine ⟨l, ?_, by simp [hc]⟩
    simp only [List.all_eq_true, Text.isAllBlank] at hc ⊢
    exact fun c h => isBlank_of_isMargin (hc c h)
  · have hm := margin_prefix hl (by simpa using hc)
    obtain ⟨k, hk⟩ := hm.trans (List.takeWhile_prefix isMargin)
    refine ⟨margin ls, ?_, ?_⟩
    · rw [Text.isAllBlank, List.all_eq_true]
      exact fun c h => isBlank_of_isMargin
        (List.all_eq_true.mp List.all_takeWhile c (hm.subset h))
    · have hdrop : l.drop (margin ls).length = k := by rw [← hk, List.drop_left]
      rw [if_neg hc, hdrop, hk]

lemma ink_dedent (ls : List Text) : (dedent ls).map Text.ink = ls.map Text.ink := by
  rw [dedent, List.map_map]
  refine List.map_congr_left fun l hl => ?_
  obtain ⟨b, hb, hl⟩ := exists_blank_append_dedent hl
  have hink := congrArg Text.ink hl
  rw [Text.ink_append, Text.ink_eq_nil hb, List.nil_append] at hink
  exact hink.symm

lemma ink_reindent {indentation : Text} (h : indentation.isAllBlank = true) (t : Text) :
    Text.ink (reindent indentation t) = Text.ink t := by
  have hlines : ∀ ls : List Text,
      (ls.map fun l => Text.trimEnd (indentation ++ l)).flatMap Text.ink = ls.flatMap Text.ink := by
    intro ls
    rw [List.flatMap_map]
    simp [Text.ink_eq_nil h]
  have hdedent : (dedent (Text.lines t).2).flatMap Text.ink = (Text.lines t).2.flatMap Text.ink := by
    rw [List.flatMap_def, ink_dedent, ← List.flatMap_def]
  calc Text.ink (reindent indentation t)
      = Text.ink (Text.lines t).1 ++ (Text.lines t).2.flatMap Text.ink := by
        rw [reindent, Text.ink_joinLines, Text.ink_trimEnd, hlines, hdedent]
    _ = Text.ink t := by rw [← Text.ink_joinLines, Text.joinLines_lines]

end Comment

lemma Levels.indentation_isAllBlank {unit : Text} (h : unit.isAllBlank = true) (ls : Levels) :
    (ls.indentation unit).isAllBlank = true := by
  simp only [Levels.indentation, Text.isAllBlank, List.all_flatten, List.all_replicate] at h ⊢
  simp [h]

namespace Page

lemma text_append (p : Page) (t : Text) : (p.append t).text = p.text ++ t := by
  rw [append]
  split
  · next h => simp [List.isEmpty_iff.mp h]
  · simp [text]

lemma text_trimEnd (p : Page) : p.trimEnd.text = Text.trimEnd p.text := by
  obtain ⟨chunks⟩ := p
  rw [trimEnd, text, text]
  induction chunks with
  | nil => rfl
  | cons c cs ih =>
    rw [trimChunks, List.reverse_cons, List.flatten_concat]
    split
    · next h => rw [ih, Text.trimEnd_append_of_trimEnd_eq_nil (List.isEmpty_iff.mp h)]
    · next h =>
      rw [Text.trimEnd_append_of_trimEnd_ne_nil (by simpa using h), List.reverse_cons,
        List.flatten_concat]

end Page

end SqlLayout
