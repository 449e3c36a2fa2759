import SqlLayout.Proofs.Ink
import SqlLayout.Proofs.Rules

/-!
# Comments stay comments

A comment that is moved to another indentation, or a line comment that became a block comment, is
closed at its own end and nowhere before.
-/

namespace SqlLayout

def closer : Text := ['*', '/']

lemma find?_eq_some_iff {w t : Text} (hw : w ≠ []) {n : Nat} :
    Text.find? w t = some n ↔ w <+: t.drop n ∧ ∀ m < n, ¬w <+: t.drop m := by
  induction t generalizing n with
  | nil => simp [Text.find?, hw]
  | cons c t ih =>
    have hstart : Text.startsWith (c :: t) w = true ↔ w <+: c :: t := List.isPrefixOf_iff_prefix
    rw [Text.find?]
    by_cases hs : w <+: c :: t
    · rw [if_pos (hstart.mpr hs), Option.some.injEq]
      constructor
      · rintro rfl
        exact ⟨hs, by simp⟩
      · rintro ⟨-, hmin⟩
        cases n with
        | zero => rfl
        | succ n => exact absurd hs (hmin 0 (by omega))
    · rw [if_neg (fun h => hs (hstart.mp h)), Option.map_eq_some_iff]
      constructor
      · rintro ⟨m, hm, rfl⟩
        obtain ⟨hpre, hmin⟩ := ih.mp hm
        refine ⟨hpre, fun i hi => ?_⟩
        cases i with
        | zero => exact hs
        | succ i => exact hmin i (by omega)
      · rintro ⟨hpre, hmin⟩
        cases n with
        | zero => exact absurd hpre hs
        | succ n => exact ⟨n, ih.mpr ⟨hpre, fun i hi => hmin (i + 1) (by omega)⟩, rfl⟩

lemma closer_infix_concat {t : Text} : closer <:+: t ++ ['*'] ↔ closer <:+: t := by
  refine ⟨fun h => ?_, fun h => h.trans (List.prefix_append _ _).isInfix⟩
  rcases List.infix_concat_iff.mp h with ⟨s, hs⟩ | h
  · have hlast := congrArg List.getLast? hs
    simp [closer, List.getLast?_append] at hlast
  · exact h

/-- A block comment holds no end of a comment before its own. -/
lemma isBlockComment_iff {x : Text} :
    IsBlockComment x ↔ ∃ body, x = ['/', '*'] ++ (body ++ closer) ∧ ¬closer <:+: body := by
  have hne : closer ≠ [] := by simp [closer]
  constructor
  · rintro ⟨body, rfl, hfind⟩
    refine ⟨body, rfl, ?_⟩
    rintro ⟨s, t, rfl⟩
    refine ((find?_eq_some_iff hne).mp (hfind [])).2 s.length ?_ ⟨t ++ closer, ?_⟩
    · simp only [List.length_append, closer, List.length_cons, List.length_nil]
      omega
    · simp [closer]
  · rintro ⟨body, rfl, hnone⟩
    refine ⟨body, rfl, fun k => (find?_eq_some_iff hne).mpr ⟨?_, fun m hm hpre => hnone ?_⟩⟩
    · rw [List.append_assoc, List.drop_left]
      exact List.prefix_append _ _
    · have hsplit : body ++ ['*', '/'] ++ k = (body ++ ['*']) ++ '/' :: k := by simp
      have hm' : m ≤ (body ++ ['*']).length := by simp only [List.length_append]; omega
      rw [hsplit, List.drop_append_of_le_length hm'] at hpre
      have hin : closer <+: (body ++ ['*']).drop m := by
        refine List.prefix_of_prefix_length_le hpre (List.prefix_append _ _) ?_
        simp only [closer, List.length_drop, List.length_append, List.length_cons, List.length_nil]
        omega
      exact closer_infix_concat.mp (hin.isInfix.trans (List.drop_suffix m _).isInfix)

lemma closer_infix_cons {c : Char} {t : Text} (h : closer <:+: c :: t) :
    (c = '*' ∧ t.head? = some '/') ∨ closer <:+: t := by
  rcases List.infix_cons_iff.mp h with ⟨s, hs⟩ | h
  · obtain ⟨rfl, rfl⟩ := List.cons.inj hs
    exact .inl ⟨rfl, rfl⟩
  · exact .inr h

/-- A text with some of its runs of blanks replaced by others; none vanishes but at the end. -/
inductive Respaced : Text → Text → Prop
  | done {g : Text} : g.isAllBlank = true → Respaced g []
  | keep {a b : Text} (c : Char) : Respaced a b → Respaced (c :: a) (c :: b)
  | gap {g g' a b : Text} : g.isAllBlank = true → g'.isAllBlank = true → g ≠ [] → g' ≠ [] →
      Respaced a b → Respaced (g ++ a) (g' ++ b)

namespace Respaced

lemma append_left {a b : Text} (t : Text) (h : Respaced a b) : Respaced (t ++ a) (t ++ b) := by
  induction t with
  | nil => exact h
  | cons c t ih => exact .keep c ih

lemma eq_nil {b : Text} (h : Respaced [] b) : b = [] := by
  generalize ht : ([] : Text) = t at h
  cases h with
  | done => exact ht
  | keep => simp at ht
  | gap _ _ hg₀ _ _ => exact absurd (List.append_eq_nil_iff.mp ht.symm).1 hg₀

lemma head {c : Char} {a b : Text} (hc : Text.isBlank c = false) (h : Respaced a b)
    (hb : b.head? = some c) : a.head? = some c := by
  cases h with
  | done => simp at hb
  | keep d h => exact hb
  | @gap g g' a b hg hg' hg₀ hne h =>
    obtain ⟨d, g', rfl⟩ := List.exists_cons_of_ne_nil hne
    simp_all [Text.isAllBlank]

lemma closer_infix {a b : Text} (h : Respaced a b) (hb : closer <:+: b) : closer <:+: a := by
  induction h with
  | done => simp [closer] at hb
  | @keep a b c h ih =>
    rcases closer_infix_cons hb with ⟨rfl, hhead⟩ | hb
    · obtain ⟨r, hr⟩ := List.head?_eq_some_iff.mp (h.head (by decide) hhead)
      exact ⟨[], r, by simp [closer, hr]⟩
    · exact (ih hb).trans (List.suffix_cons c a).isInfix
  | @gap g g' a b hg hg' hg₀ hne h ih =>
    have hb' : closer <:+: b := by
      clear hne
      induction g' with
      | nil => exact hb
      | cons d g' ihg =>
        simp only [Text.isAllBlank, List.all_cons, Bool.and_eq_true] at hg'
        rcases closer_infix_cons hb with ⟨rfl, -⟩ | hb
        · exact absurd hg'.1 (by decide)
        · exact ihg hg'.2 hb
    exact (ih hb').trans (List.suffix_append g a).isInfix

lemma of_append {c : Char} {a k b : Text} (hc : Text.isBlank c = false)
    (h : Respaced (a ++ c :: k) b) : ∃ a' k', b = a' ++ c :: k' ∧ Respaced a a' ∧ Respaced k k' := by
  generalize ht : a ++ c :: k = t at h
  induction h generalizing a with
  | @done g hg =>
    subst ht
    simp [Text.isAllBlank, hc] at hg
  | @keep x y d h ih =>
    cases a with
    | nil =>
      obtain ⟨rfl, rfl⟩ := List.cons.inj ht
      exact ⟨[], y, rfl, .done rfl, h⟩
    | cons e a =>
      obtain ⟨rfl, hx⟩ := List.cons.inj ht
      obtain ⟨a', k', rfl, ha, hk⟩ := ih hx
      exact ⟨e :: a', k', rfl, .keep e ha, hk⟩
  | @gap g g' x y hg hg' hg₀ hne h ih =>
    have hinside : ∃ u, a = g ++ u ∧ u ++ c :: k = x := by
      rcases List.append_eq_append_iff.mp ht with ⟨u, rfl, hu⟩ | ⟨u, rfl, hu⟩
      · cases u with
        | nil => exact ⟨[], by simp, hu⟩
        | cons d u =>
          obtain ⟨rfl, -⟩ := List.cons.inj hu
          simp [Text.isAllBlank, hc] at hg
      · exact ⟨u, rfl, hu.symm⟩
    obtain ⟨u, rfl, hu⟩ := hinside
    obtain ⟨a', k', rfl, ha, hk⟩ := ih hu
    exact ⟨g' ++ a', k', by simp, .gap hg hg' hg₀ hne ha, hk⟩

lemma joinLines {f : Text → Text} {later : List Text}
    (hf : ∀ l ∈ later, ∃ b b' k : Text, b.isAllBlank = true ∧ b'.isAllBlank = true ∧ l = b ++ k ∧
      f l = b' ++ Text.trimEnd k) (first : Text) :
    Respaced (Text.joinLines first later) (Text.joinLines (Text.trimEnd first) (later.map f)) := by
  induction later generalizing first with
  | nil =>
    obtain ⟨w, hw, hfirst⟩ := Text.exists_trimEnd_append first
    generalize Text.trimEnd first = u at hfirst
    subst hfirst
    simpa [Text.joinLines] using (Respaced.done hw).append_left u
  | cons l ls ih =>
    obtain ⟨b, b', k, hb, hb', rfl, hfl⟩ := hf l (by simp)
    have hrest := ih (fun m hm => hf m (List.mem_cons_of_mem _ hm)) k
    obtain ⟨w, hw, hfirst⟩ := Text.exists_trimEnd_append first
    generalize Text.trimEnd first = u at hfirst
    subst hfirst
    have hbreak : ∀ t : Text, t.isAllBlank = true → Text.isAllBlank ('\n' :: t) = true :=
      fun t ht => Text.isAllBlank_append (a := ['\n']).mpr ⟨by decide, ht⟩
    have hgap : Respaced ((w ++ '\n' :: b) ++ Text.joinLines k ls)
        (('\n' :: b') ++ Text.joinLines (Text.trimEnd k) (ls.map f)) :=
      .gap (Text.isAllBlank_append.mpr ⟨hw, hbreak b hb⟩) (hbreak b' hb') (by simp) (by simp)
        hrest
    simpa [Text.joinLines, hfl] using hgap.append_left u

end Respaced

lemma Text.exists_trimEnd_blank_append {b : Text} (hb : b.isAllBlank = true) (k : Text) :
    ∃ b' : Text, b'.isAllBlank = true ∧ trimEnd (b ++ k) = b' ++ trimEnd k := by
  by_cases hk : trimEnd k = []
  · refine ⟨trimEnd b, ?_, ?_⟩
    · obtain ⟨w, -, hw⟩ := exists_trimEnd_append b
      rw [hw, isAllBlank_append] at hb
      exact hb.1
    · rw [trimEnd_append_of_trimEnd_eq_nil hk, hk, List.append_nil]
  · exact ⟨b, hb, trimEnd_append_of_trimEnd_ne_nil hk⟩

namespace Comment

lemma respaced_reindent {indentation : Text} (hi : indentation.isAllBlank = true) (t : Text) :
    Respaced t (reindent indentation t) := by
  have hlines := Text.joinLines_lines t
  rw [reindent]
  generalize Text.lines t = p at hlines ⊢
  obtain ⟨first, later⟩ := p
  simp only [dedent, List.map_map] at hlines ⊢
  rw [← hlines]
  refine Respaced.joinLines (fun l hl => ?_) first
  obtain ⟨b, hb, heq⟩ := exists_blank_append_dedent hl
  obtain ⟨b', hb', htrim⟩ := Text.exists_trimEnd_blank_append hi
    (if l.all isMargin then [] else l.drop (margin later).length)
  exact ⟨b, b', _, hb, hb', heq, htrim⟩

lemma isBlockComment_reindent {indentation x : Text} (hi : indentation.isAllBlank = true)
    (hx : IsBlockComment x) : IsBlockComment (reindent indentation x) := by
  obtain ⟨body, rfl, hbody⟩ := isBlockComment_iff.mp hx
  have hr := respaced_reindent hi (['/', '*'] ++ (body ++ closer))
  generalize reindent indentation (['/', '*'] ++ (body ++ closer)) = y at hr ⊢
  obtain ⟨a, y, rfl, ha, hr⟩ := hr.of_append (a := []) (c := '/') (by decide)
  obtain ⟨b, y, rfl, hb, hr⟩ := hr.of_append (a := []) (c := '*') (by decide)
  obtain ⟨body', y, rfl, hbody', hr⟩ := hr.of_append (a := body) (c := '*') (by decide)
  obtain ⟨d, y, rfl, hd, hr⟩ := hr.of_append (a := []) (c := '/') (by decide)
  rw [ha.eq_nil, hb.eq_nil, hd.eq_nil, hr.eq_nil]
  exact isBlockComment_iff.mpr ⟨body', rfl, fun h => hbody (hbody'.closer_infix h)⟩

lemma head_spaceClosers (t : Text) : (spaceClosers t).head? = t.head? := by
  fun_induction spaceClosers t <;> rfl

lemma not_closer_infix_spaceClosers (t : Text) : ¬closer <:+: spaceClosers t ++ [' '] := by
  fun_induction spaceClosers t with
  | case1 => decide
  | case2 cs ih =>
    intro h
    rcases closer_infix_cons h with ⟨-, h'⟩ | h
    · simp at h'
    · rcases closer_infix_cons h with ⟨h', -⟩ | h
      · exact absurd h' (by decide)
      · rcases closer_infix_cons h with ⟨h', -⟩ | h
        · exact absurd h' (by decide)
        · exact ih h
  | case3 c cs hne ih =>
    intro h
    rcases closer_infix_cons h with ⟨rfl, hhead⟩ | h
    · have hcs : cs.head? = some '/' := by
        change (spaceClosers cs ++ [' ']).head? = some '/' at hhead
        rw [← head_spaceClosers]
        cases hs : spaceClosers cs with
        | nil => simp [hs] at hhead
        | cons d ds => simpa [hs] using hhead
      obtain ⟨ds, rfl⟩ := List.head?_eq_some_iff.mp hcs
      exact hne ds rfl rfl
    · exact ih h

lemma isBlockComment_ofLine (marks : List Text) (t : Text) : IsBlockComment (ofLine marks t) := by
  rw [ofLine]
  generalize dropMark marks _ = body
  exact isBlockComment_iff.mpr
    ⟨spaceClosers body ++ [' '], by simp [closer], not_closer_infix_spaceClosers body⟩

end Comment

end SqlLayout
