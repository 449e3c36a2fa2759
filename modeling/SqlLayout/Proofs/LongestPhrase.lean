import Mathlib.Data.List.Forall2
import SqlLayout.Proofs.Keywords
import SqlLayout.Proofs.StrayTokens
import SqlLayout.Proofs.StringGrammar

/-!
# The longest phrase

Keyword phrases are tried list by list, and in each list the longer ones first. `StandsAs` says without
regard to that order what it means that a phrase stands at the head of a text. Two phrases that stand
at the same place begin with the same words, and no phrase is tried before one that it begins; so the
first phrase that is found is the longest of all that stand there.
-/

namespace SqlLayout

open Lexeme

/-- A text is a word in some letter case. -/
def InAnyCase (w v : Text) : Prop :=
  List.Forall₂ (fun a c => sameLetter a c = true) w v

/-- A text spells a phrase: its words in order, each in any letter case, with blanks between them. -/
inductive Spelling : List Text → Text → Prop
  | word {w v : Text} : InAnyCase w v → Spelling [w] v
  | words {w v b x : Text} {ws : List Text} : InAnyCase w v → b ≠ [] → b.isAllBlank = true →
      Spelling ws x → Spelling (w :: ws) (v ++ (b ++ x))

/-- A phrase stands at the head of a text as the given part of it, which ends at a word boundary. -/
def StandsAs (phrase x t : Text) : Prop :=
  ∃ rest, t = x ++ rest ∧ Spelling phrase.words x ∧ x.endsWord ≠ rest.startsWord

/-- A phrase of a role stands at the head of a text, and no phrase that stands there is longer. -/
structure LongestAt (d : Dialect) (t : Text) (role : Role) (phrase x : Text) : Prop where
  mem : phrase ∈ d.phrases role
  stands : StandsAs phrase x t
  longest : ∀ role' q y, q ∈ d.phrases role' → StandsAs q y t → y.length ≤ x.length

/-! ### Matching is standing -/

lemma sameWord_iff {w v : Text} : sameWord w v = true ↔ InAnyCase w v := by
  rw [sameWord, InAnyCase]
  induction w generalizing v with
  | nil => cases v <;> simp [startsWithWord]
  | cons a w ih =>
    cases v with
    | nil => simp
    | cons c v =>
      rw [List.forall₂_cons, ← ih, startsWithWord]
      simp only [List.length_cons, Bool.and_eq_true, beq_iff_eq, Nat.add_right_cancel_iff]
      tauto

lemma InAnyCase.isWordChar {w v : Text} (h : InAnyCase w v) (hw : Spelt w) :
    v ≠ [] ∧ ∀ c ∈ v, Text.isWordChar c = true := by
  obtain ⟨hne, hchars⟩ := hw
  refine ⟨?_, ?_⟩
  · rintro rfl
    exact hne (List.forall₂_nil_right_iff.mp h)
  · clear hne
    induction h with
    | nil => simp
    | @cons a c w v hac _ ih =>
      obtain ⟨hascii, hword⟩ := hchars a List.mem_cons_self
      refine List.forall_mem_cons.mpr ⟨isWordChar_of_sameLetter hascii hword hac, ?_⟩
      exact ih fun b hb => hchars b (List.mem_cons_of_mem a hb)

lemma Spelling.bounds {ws : List Text} {x : Text} (h : Spelling ws x) (hws : ∀ w ∈ ws, Spelt w) :
    x ≠ [] ∧ x.startsWord = true ∧ x.endsWord = true := by
  induction h with
  | @word w v hwv =>
    obtain ⟨hne, hv⟩ := hwv.isWordChar (hws w List.mem_cons_self)
    obtain ⟨c, v, rfl⟩ := List.exists_cons_of_ne_nil hne
    exact ⟨hne, hv c List.mem_cons_self, Text.endsWord_of_forall hne hv⟩
  | @words w v b x ws hwv _ _ _ ih =>
    obtain ⟨hne, hv⟩ := hwv.isWordChar (hws w List.mem_cons_self)
    obtain ⟨c, v, rfl⟩ := List.exists_cons_of_ne_nil hne
    obtain ⟨hx, -, hend⟩ := ih fun u hu => hws u (List.mem_cons_of_mem w hu)
    refine ⟨by simp, hv c List.mem_cons_self, ?_⟩
    rw [Text.endsWord_append (by simp [hx]), Text.endsWord_append hx, hend]

section

variable {ws : List Text} (hws : ∀ w ∈ ws, Spelt w)
include hws

lemma Spelling.phraseSize? {x rest : Text} (h : Spelling ws x) (hrest : rest.startsWord = false) :
    phraseSize? ws (x ++ rest) = some x.length := by
  induction h with
  | @word w v hwv =>
    have hw := hws w List.mem_cons_self
    rw [phraseSize?_single hw (hwv.isWordChar hw).2 hrest, if_pos (sameWord_iff.mpr hwv)]
  | @words w v b x ws hwv hne hb hx ih =>
    have hw := hws w List.mem_cons_self
    have hlater : ∀ u ∈ ws, Spelt u := fun u hu => hws u (List.mem_cons_of_mem w hu)
    obtain ⟨hx0, hstart, -⟩ := hx.bounds hlater
    have hsolid : (x ++ rest).startsBlank = false := by
      cases hblank : (x ++ rest).startsBlank with
      | false => rfl
      | true =>
        have hword := Text.not_startsWord_of_startsBlank hblank
        rw [Text.startsWord_append hx0, hstart] at hword
        simp at hword
    have hgap : (b ++ (x ++ rest)).startsBlank = true := by
      obtain ⟨c, b, rfl⟩ := List.exists_cons_of_ne_nil hne
      exact List.all_eq_true.mp hb c List.mem_cons_self
    have hws0 : ws ≠ [] := by
      rintro rfl
      cases hx
    have hsplit : v ++ (b ++ x) ++ rest = v ++ (b ++ (x ++ rest)) := by simp
    rw [hsplit, phraseSize?_cons hw (hwv.isWordChar hw).2 (Text.not_startsWord_of_startsBlank hgap) hws0 hlater,
      hgap, sameWord_iff.mpr hwv, Text.trimStart_blank_append hb hsolid, Text.takeWhile_blank_append hb hsolid,
      ih hlater]
    simp only [Bool.and_true, if_true, Option.map_some, List.length_append]
    congr 1
    omega

lemma spelling_of_phraseSize? {x rest : Text} (h : phraseSize? ws (x ++ rest) = some x.length) :
    Spelling ws x := by
  induction ws generalizing x with
  | nil => simp [SqlLayout.phraseSize?, wordsSize?] at h
  | cons w ws ih =>
    have hw := hws w List.mem_cons_self
    have hlater : ∀ u ∈ ws, Spelt u := fun u hu => hws u (List.mem_cons_of_mem w hu)
    rcases phraseSize?_parts hw hlater h with ⟨rfl, hs, -, -⟩ | ⟨-, v, b, y, rfl, hs, -, hb0, hb, -, -, hm⟩
    · exact .word (sameWord_iff.mp hs)
    · exact .words (sameWord_iff.mp hs) hb0 hb (ih hlater hm)

lemma phraseSize?_eq_some_iff {t : Text} {n : Nat} : phraseSize? ws t = some n ↔
    ∃ x rest, t = x ++ rest ∧ Spelling ws x ∧ x.endsWord ≠ rest.startsWord ∧ x.length = n := by
  constructor
  · intro h
    have hbounds := wordsSize?_bounds (fun w hw => (hws w hw).1) (Option.filter_eq_some_iff.mp h).1
    obtain ⟨x, rest, rfl, rfl⟩ : ∃ x rest : Text, t = x ++ rest ∧ x.length = n :=
      ⟨t.take n, t.drop n, (List.take_append_drop n t).symm, List.length_take_of_le hbounds.2⟩
    obtain ⟨-, hend, hrest⟩ := phraseSize?_shape hws h
    refine ⟨x, rest, rfl, spelling_of_phraseSize? hws h, ?_, rfl⟩
    rw [hend, hrest]
    simp
  · rintro ⟨x, rest, rfl, hx, hboundary, rfl⟩
    rw [(hx.bounds hws).2.2] at hboundary
    exact hx.phraseSize? hws (Bool.eq_false_iff.mpr (Ne.symm hboundary))

end

/-! ### Phrases that stand at one place -/

lemma toUpper_toLower_of_isCapital {a : Char} (ha : isCapital a = true) : a.toLower.toUpper = a :=
  Text.ascii_forall (P := fun a => isCapital a = true → a.toLower.toUpper = a) (by decide +kernel)
    (isCapital_spec ha).1 ha

lemma eq_of_sameLetter {a b c : Char} (ha : isCapital a = true) (hb : isCapital b = true)
    (hac : sameLetter a c = true) (hbc : sameLetter b c = true) : a = b := by
  have hfold : Text.fold a = Text.fold b := by
    rw [sameLetter, beq_iff_eq] at hac hbc
    rw [hac, hbc]
  rw [Text.fold, if_pos (isCapital_spec ha).1, Text.fold, if_pos (isCapital_spec hb).1] at hfold
  rw [← toUpper_toLower_of_isCapital ha, hfold, toUpper_toLower_of_isCapital hb]

lemma InAnyCase.unique {w w' v : Text} (h : InAnyCase w v) (h' : InAnyCase w' v)
    (hw : ∀ a ∈ w, isCapital a = true) (hw' : ∀ a ∈ w', isCapital a = true) : w = w' := by
  induction h generalizing w' with
  | nil => exact (List.forall₂_nil_right_iff.mp h').symm
  | @cons a c w v hac _ ih =>
    obtain ⟨b, u, hbc, hu, rfl⟩ := List.forall₂_cons_right_iff.mp h'
    rw [List.forall_mem_cons] at hw hw'
    rw [eq_of_sameLetter hw.1 hw'.1 hac hbc, ih hu hw.2 hw'.2]

lemma isCapital_of_isSpelling {ws : List Text} (h : isSpelling ws = true) :
    ∀ w ∈ ws, ∀ a ∈ w, isCapital a = true := by
  rw [isSpelling.eq_def] at h
  split at h
  · next a b w vs =>
    simp only [Bool.and_eq_true] at h
    obtain ⟨⟨⟨ha, hb⟩, hw⟩, hvs⟩ := h
    refine List.forall_mem_cons.mpr ⟨?_, fun v hv => ?_⟩
    · have hfirst : isCapital a = true ∧ isCapital b = true := by simp [isCapital, ha, hb]
      exact List.forall_mem_cons.mpr ⟨hfirst.1, List.forall_mem_cons.mpr ⟨hfirst.2, List.all_eq_true.mp hw⟩⟩
    · have hv := List.all_eq_true.mp hvs v hv
      rw [Bool.and_eq_true] at hv
      exact List.all_eq_true.mp hv.2
  · simp at h

lemma Spelling.forall₂_words {ws : List Text} {x : Text} (h : Spelling ws x) (hws : ∀ w ∈ ws, Spelt w) :
    List.Forall₂ InAnyCase ws x.words := by
  induction h with
  | @word w v hwv =>
    obtain ⟨hne, hv⟩ := hwv.isWordChar (hws w List.mem_cons_self)
    rw [Text.words_of_solid hne fun c hc => Text.not_isBlank_of_isWordChar (hv c hc)]
    exact .cons hwv .nil
  | @words w v b x ws hwv hb0 hb _ ih =>
    obtain ⟨hne, hv⟩ := hwv.isWordChar (hws w List.mem_cons_self)
    have hgap : (b ++ x).startsBlank = true := by
      obtain ⟨c, b, rfl⟩ := List.exists_cons_of_ne_nil hb0
      exact List.all_eq_true.mp hb c List.mem_cons_self
    rw [Text.words_append (.inr hgap), Text.words_of_solid hne fun c hc => Text.not_isBlank_of_isWordChar (hv c hc),
      Text.words_blank_append hb]
    exact .cons hwv (ih fun u hu => hws u (List.mem_cons_of_mem w hu))

lemma Spelling.unique {ws us : List Text} {x : Text} (h : Spelling ws x) (h' : Spelling us x)
    (hws : isSpelling ws = true) (hus : isSpelling us = true) : ws = us := by
  have hwords := h.forall₂_words (isSpelling_cons hws).2
  have hwords' := h'.forall₂_words (isSpelling_cons hus).2
  have hwc := isCapital_of_isSpelling hws
  have huc := isCapital_of_isSpelling hus
  clear h h' hws hus
  generalize x.words = vs at hwords hwords'
  induction hwords generalizing us with
  | nil => exact (List.forall₂_nil_right_iff.mp hwords').symm
  | @cons w v ws vs hwv _ ih =>
    obtain ⟨u, us, huv, hlater, rfl⟩ := List.forall₂_cons_right_iff.mp hwords'
    rw [List.forall_mem_cons] at hwc huc
    rw [hwv.unique huv hwc.1 huc.1, ih hwc.2 huc.2 hlater]

/-- Of two phrases that are found at the head of a text, one begins with the words of the other, and it is
not the shorter one. -/
lemma prefix_or_prefix_of_phraseSize? {ws us : List Text} (hws : ∀ w ∈ ws, Spelt w) (hus : ∀ w ∈ us, Spelt w)
    (hwc : ∀ w ∈ ws, ∀ a ∈ w, isCapital a = true) (huc : ∀ w ∈ us, ∀ a ∈ w, isCapital a = true)
    {t : Text} {n m : Nat} (hn : phraseSize? ws t = some n) (hm : phraseSize? us t = some m) :
    ws <+: us ∧ n ≤ m ∨ us <+: ws ∧ m ≤ n := by
  induction ws generalizing us t n m with
  | nil => simp [phraseSize?, wordsSize?] at hn
  | cons w ws ih =>
    cases us with
    | nil => simp [phraseSize?, wordsSize?] at hm
    | cons u us =>
      rw [List.forall_mem_cons] at hws hus hwc huc
      obtain ⟨v, rest, rfl, hv, hr⟩ := Text.exists_word_append t
      have hsame : sameWord w v = true → sameWord u v = true → w = u := fun hw hu =>
        (sameWord_iff.mp hw).unique (sameWord_iff.mp hu) hwc.1 huc.1
      by_cases hws0 : ws = []
      · subst hws0
        rw [phraseSize?_single hws.1 hv hr, Option.ite_none_right_eq_some, Option.some.injEq] at hn
        obtain ⟨hw, rfl⟩ := hn
        left
        by_cases hus0 : us = []
        · subst hus0
          rw [phraseSize?_single hus.1 hv hr, Option.ite_none_right_eq_some, Option.some.injEq] at hm
          obtain ⟨hu, rfl⟩ := hm
          rw [hsame hw hu]
          exact ⟨List.prefix_refl _, Nat.le_refl _⟩
        · rw [phraseSize?_cons hus.1 hv hr hus0 hus.2, Option.ite_none_right_eq_some, Bool.and_eq_true] at hm
          obtain ⟨⟨hu, -⟩, hm⟩ := hm
          obtain ⟨k, -, rfl⟩ := Option.map_eq_some_iff.mp hm
          rw [hsame hw hu]
          exact ⟨⟨us, rfl⟩, by omega⟩
      · rw [phraseSize?_cons hws.1 hv hr hws0 hws.2, Option.ite_none_right_eq_some, Bool.and_eq_true] at hn
        obtain ⟨⟨hw, -⟩, hn⟩ := hn
        obtain ⟨j, hj, rfl⟩ := Option.map_eq_some_iff.mp hn
        by_cases hus0 : us = []
        · subst hus0
          rw [phraseSize?_single hus.1 hv hr, Option.ite_none_right_eq_some, Option.some.injEq] at hm
          obtain ⟨hu, rfl⟩ := hm
          right
          rw [hsame hw hu]
          exact ⟨⟨ws, rfl⟩, by omega⟩
        · rw [phraseSize?_cons hus.1 hv hr hus0 hus.2, Option.ite_none_right_eq_some, Bool.and_eq_true] at hm
          obtain ⟨⟨hu, -⟩, hm⟩ := hm
          obtain ⟨k, hk, rfl⟩ := Option.map_eq_some_iff.mp hm
          rw [hsame hw hu, List.prefix_cons_inj, List.prefix_cons_inj]
          rcases ih hws.2 hus.2 hwc.2 huc.2 hj hk with ⟨hbegins, hle⟩ | ⟨hbegins, hle⟩
          · exact .inl ⟨hbegins, by omega⟩
          · exact .inr ⟨hbegins, by omega⟩

/-! ### The order in which phrases are tried -/

lemma pairwise_insertByLength {t : Text} {ts : List Text}
    (h : ts.Pairwise fun a b => b.length ≤ a.length) :
    (insertByLength t ts).Pairwise fun a b => b.length ≤ a.length := by
  induction ts with
  | nil => exact List.pairwise_singleton _ t
  | cons u ts ih =>
    rw [List.pairwise_cons] at h
    rw [insertByLength]
    split
    · next hle =>
      refine List.pairwise_cons.mpr ⟨List.forall_mem_cons.mpr ⟨hle, fun v hv => ?_⟩, List.pairwise_cons.mpr h⟩
      exact Nat.le_trans (h.1 v hv) hle
    · next hlt =>
      refine List.pairwise_cons.mpr ⟨fun v hv => ?_, ih h.2⟩
      rcases mem_insertByLength.mp hv with rfl | hv
      · omega
      · exact h.1 v hv

lemma pairwise_byLength (ts : List Text) : (byLength ts).Pairwise fun a b => b.length ≤ a.length := by
  induction ts with
  | nil => exact List.Pairwise.nil
  | cons t ts ih => exact pairwise_insertByLength ih

lemma length_intercalate_lt {ws us : List Text} (hws : ws ≠ []) (hus : us ≠ []) :
    (List.intercalate [' '] ws).length < (List.intercalate [' '] (ws ++ us)).length := by
  induction ws with
  | nil => exact absurd rfl hws
  | cons w ws ih =>
    cases ws with
    | nil =>
      obtain ⟨u, us, rfl⟩ := List.exists_cons_of_ne_nil hus
      simp [List.intercalate]
    | cons w' ws =>
      have hlater := ih (by simp)
      simp only [List.intercalate, List.cons_append, List.intersperse_cons_cons, List.flatten_cons,
        List.length_append, List.length_cons] at hlater ⊢
      omega

namespace Dialect

lemma mem_lexicon_phrases {d : Dialect} {role : Role} {ws : List Text} :
    (role, ws) ∈ d.lexicon.phrases ↔ ∃ p ∈ d.phrases role, p.words = ws := by
  have horder : d.lexicon.phrases = Role.inOrder.flatMap d.orderedPhrases := rfl
  rw [horder, List.mem_flatMap]
  constructor
  · rintro ⟨r, -, h⟩
    obtain ⟨p, hp, heq⟩ := List.mem_map.mp h
    obtain ⟨rfl, rfl⟩ := Prod.mk.inj heq
    exact ⟨p, mem_byLength.mp hp, rfl⟩
  · rintro ⟨p, hp, rfl⟩
    exact ⟨role, role.mem_inOrder, List.mem_map.mpr ⟨p, mem_byLength.mpr hp, rfl⟩⟩

lemma Orderly.pairwise_phrases {d : Dialect} (hd : d.Orderly) :
    d.lexicon.phrases.Pairwise fun a b => a.2 <+: b.2 → a = b := by
  have horder : d.lexicon.phrases = Role.inOrder.flatMap d.orderedPhrases := rfl
  rw [horder, List.pairwise_flatMap]
  constructor
  · intro role _
    rw [orderedPhrases, List.pairwise_map]
    refine (pairwise_byLength (d.phrases role)).imp_of_mem ?_
    intro p q hp hq hle hbegins
    obtain ⟨us, hus⟩ : p.words <+: q.words := hbegins
    by_cases hus0 : us = []
    · rw [hus0, List.append_nil] at hus
      rw [hus]
    · have hne : p.words ≠ [] := by
        intro hnil
        have hspelling := hd.spelling role p (mem_byLength.mp hp)
        simp [hnil, isSpelling] at hspelling
      have hlt := length_intercalate_lt hne hus0
      rw [hus, hd.spaced role p (mem_byLength.mp hp), hd.spaced role q (mem_byLength.mp hq)] at hlt
      omega
  · refine hd.apart.imp ?_
    intro r r' hapart a ha b hb hbegins
    obtain ⟨p, hp, rfl⟩ := List.mem_map.mp ha
    obtain ⟨q, hq, rfl⟩ := List.mem_map.mp hb
    exact absurd hbegins (hapart p (mem_byLength.mp hp) q (mem_byLength.mp hq))

end Dialect

section

variable {d : Dialect} (hd : d.Orderly)
include hd

lemma Dialect.Orderly.spelt {role : Role} {p : Text} (hp : p ∈ d.phrases role) : ∀ w ∈ p.words, Spelt w :=
  (isSpelling_cons (hd.spelling role p hp)).2

lemma standsAs_iff {role : Role} {p x t : Text} (hp : p ∈ d.phrases role) :
    StandsAs p x t ↔ x <+: t ∧ phraseSize? p.words t = some x.length := by
  rw [phraseSize?_eq_some_iff (hd.spelt hp)]
  constructor
  · rintro ⟨rest, rfl, hx, hboundary⟩
    exact ⟨List.prefix_append x rest, x, rest, rfl, hx, hboundary, rfl⟩
  · rintro ⟨hx, y, rest, rfl, hy, hboundary, hlength⟩
    obtain rfl : x = y :=
      (List.prefix_of_prefix_length_le hx (List.prefix_append y rest) hlength.ge).eq_of_length hlength.symm
    exact ⟨rest, rfl, hy, hboundary⟩

lemma longestAt_of_keyword? {ctx : Context} {t : Text} {l : Lexeme} (h : keyword? d.lexicon ctx t = some l) :
    ctx.afterDot = false ∧ ∃ role p x, LongestAt d t role p x ∧ l = { kind := .keyword role, size := x.length } := by
  rw [keyword?] at h
  split at h
  · simp at h
  next hdot =>
  obtain ⟨front, ⟨role, ws⟩, back, hsplit, hfound, hfront⟩ := List.findSome?_eq_some_iff.mp h
  obtain ⟨n, hn, rfl⟩ := Option.map_eq_some_iff.mp hfound
  obtain ⟨p, hp, rfl⟩ := Dialect.mem_lexicon_phrases.mp (hsplit ▸ List.mem_append_right front List.mem_cons_self)
  obtain ⟨x, rest, rfl, hx, hboundary, rfl⟩ := (phraseSize?_eq_some_iff (hd.spelt hp)).mp hn
  refine ⟨by simpa using hdot, role, p, x, ⟨hp, ⟨rest, rfl, hx, hboundary⟩, ?_⟩, rfl⟩
  intro role' q y hq hy
  have hm := ((standsAs_iff hd hq).mp hy).2
  rcases prefix_or_prefix_of_phraseSize? (hd.spelt hp) (hd.spelt hq)
    (isCapital_of_isSpelling (hd.spelling role p hp)) (isCapital_of_isSpelling (hd.spelling role' q hq)) hn hm with
    ⟨hbegins, -⟩ | ⟨-, hle⟩
  · -- a phrase that goes on behind the first one found would have been tried before it
    have hmem := Dialect.mem_lexicon_phrases.mpr ⟨q, hq, rfl⟩
    have hpairwise := hd.pairwise_phrases
    rw [hsplit, List.mem_append, List.mem_cons] at hmem
    rw [hsplit, List.pairwise_append, List.pairwise_cons] at hpairwise
    rcases hmem with hmem | heq | hmem
    · have hnone : phraseSize? q.words (x ++ rest) = none := Option.map_eq_none_iff.mp (hfront _ hmem)
      simp [hnone] at hm
    · rw [(Prod.mk.inj heq).2, hn, Option.some.injEq] at hm
      omega
    · have heq := hpairwise.2.1.1 _ hmem hbegins
      rw [← (Prod.mk.inj heq).2, hn, Option.some.injEq] at hm
      omega
  · exact hle

lemma Dialect.Orderly.eq_of_words {role role' : Role} {p q : Text} (hp : p ∈ d.phrases role)
    (hq : q ∈ d.phrases role') (hwords : p.words = q.words) : role = role' ∧ p = q := by
  have hsame : ∀ a ∈ d.lexicon.phrases, ∀ b ∈ d.lexicon.phrases, a.2 = b.2 → a = b := by
    let R (a b : Role × List Text) : Prop := a.2 = b.2 → a = b
    have hsymm : Std.Symm R := ⟨fun a b h heq => (h heq.symm).symm⟩
    have hpairwise : d.lexicon.phrases.Pairwise R := by
      refine hd.pairwise_phrases.imp ?_
      intro a b h heq
      exact h (heq ▸ List.prefix_refl a.2)
    exact fun a ha b hb => hpairwise.forall_of_forall (fun _ _ _ => rfl) ha hb
  have hboth := hsame _ (mem_lexicon_phrases.mpr ⟨p, hp, rfl⟩) _ (mem_lexicon_phrases.mpr ⟨q, hq, rfl⟩) hwords
  refine ⟨(Prod.mk.inj hboth).1, ?_⟩
  rw [← hd.spaced role p hp, ← hd.spaced role' q hq, hwords]

lemma LongestAt.unique {t : Text} {role role' : Role} {p q x y : Text} (h : LongestAt d t role p x)
    (h' : LongestAt d t role' q y) : role = role' ∧ p = q ∧ x = y := by
  obtain ⟨rest, rfl, hx, -⟩ := h.stands
  obtain ⟨rest', hsplit, hy, -⟩ := h'.stands
  have hlength : x.length = y.length :=
    Nat.le_antisymm (h'.longest role p x h.mem h.stands) (h.longest role' q y h'.mem h'.stands)
  obtain ⟨rfl, -⟩ := List.append_inj hsplit hlength
  have hwords := hx.unique hy (hd.spelling role p h.mem) (hd.spelling role' q h'.mem)
  obtain ⟨hrole, hphrase⟩ := hd.eq_of_words h.mem h'.mem hwords
  exact ⟨hrole, hphrase, rfl⟩

lemma keyword?_ne_none {ctx : Context} (hdot : ctx.afterDot = false) {role : Role} {p x t : Text}
    (hp : p ∈ d.phrases role) (hx : StandsAs p x t) : keyword? d.lexicon ctx t ≠ none := by
  rw [keyword?, if_neg (by simp [hdot])]
  intro hnone
  have hphrase := List.findSome?_eq_none_iff.mp hnone _ (Dialect.mem_lexicon_phrases.mpr ⟨p, hp, rfl⟩)
  rw [Option.map_eq_none_iff, ((standsAs_iff hd hp).mp hx).2] at hphrase
  simp at hphrase

/-- The rule for keywords finds exactly the longest phrase. -/
lemma keyword?_eq_some_iff {ctx : Context} {t : Text} {l : Lexeme} : keyword? d.lexicon ctx t = some l ↔
    ctx.afterDot = false ∧ ∃ role p x, LongestAt d t role p x ∧ l = { kind := .keyword role, size := x.length } := by
  refine ⟨longestAt_of_keyword? hd, ?_⟩
  rintro ⟨hdot, role, p, x, hlongest, rfl⟩
  obtain ⟨l, hl⟩ := Option.ne_none_iff_exists'.mp (keyword?_ne_none hd hdot hlongest.mem hlongest.stands)
  obtain ⟨-, role', q, y, hlongest', rfl⟩ := longestAt_of_keyword? hd hl
  obtain ⟨rfl, -, rfl⟩ := hlongest.unique hd hlongest'
  exact hl

end

/-! ### Keywords in a query -/

def keywordToken (p : Position) (role : Role) (x : Text) : Token where
  kind := .keyword role
  text := x
  span := some ⟨p, p.advance x⟩

/-- The last of some tokens is a dot. -/
def BehindDot (ts : List Token) : Prop :=
  ∃ t, ts.getLast? = some t ∧ t.text = ['.']

/-- The rules that come before the one for keywords leave a text alone. -/
structure LeftToKeywords (d : Dialect) (ctx : Context) (t : Text) : Prop where
  blank : t.startsBlank = false
  lineComment : d.commentMarks.any t.startsWith = false
  blockComment : t.startsWith ['/', '*'] = false
  string : d.lexicon.quotes.find? t.startsWith = none
  bracket : bracket? d t = none
  placeholder : placeholder? d t = none
  number : number? ctx t = none

lemma Reaches.afterDot_iff {lx : Lexicon} {source : Text} {ts : List Token} {ctx : Context} {p : Position} {t : Text}
    (h : Reaches lx source ts ctx p t) : ctx.afterDot = true ↔ BehindDot ts := by
  cases h with
  | start => simp [Context.start, BehindDot]
  | token => simp [Context.next, BehindDot, Lexeme.token]

lemma LeftToKeywords.lexeme {d : Dialect} {ctx : Context} {t : Text} (h : LeftToKeywords d ctx t) :
    lexeme d.lexicon ctx t =
      .ok ((keyword? d.lexicon ctx t).getD ((word? d.lexicon ctx t).getD (operator t))) := by
  have hplain : plain d.lexicon ctx t =
      (keyword? d.lexicon ctx t).getD ((word? d.lexicon ctx t).getD (operator t)) := by
    have hdialect : d.lexicon.dialect = d := rfl
    rw [plain, hdialect, h.bracket, h.placeholder, h.number]
    cases keyword? d.lexicon ctx t <;> cases word? d.lexicon ctx t <;> rfl
  have hmarks : d.lexicon.dialect.commentMarks.any t.startsWith = false := h.lineComment
  rw [SqlLayout.lexeme, h.blank, hmarks, h.blockComment, h.string, hplain]
  rfl

section

variable {source : Text} {ts : List Token} {ctx : Context} {p : Position} {t : Text}
  (h : Reaches Dialect.standard.lexicon source ts ctx p t) (hleft : LeftToKeywords .standard ctx t)
include h hleft

lemma reaches_keywordToken (hdot : ¬BehindDot ts) {role : Role} {phrase x : Text}
    (hx : LongestAt .standard t role phrase x) : ∃ ctx' p' t',
      Reaches Dialect.standard.lexicon source (ts ++ [keywordToken p role x]) ctx' p' t' := by
  have hbefore : ctx.afterDot = false := Bool.eq_false_iff.mpr fun hafter => hdot (h.afterDot_iff.mp hafter)
  have hfound := (keyword?_eq_some_iff Dialect.standard_orderly).mpr ⟨hbefore, role, phrase, x, hx, rfl⟩
  have hlexeme := hleft.lexeme
  obtain ⟨rest, rfl, hspelling, -⟩ := hx.stands
  rw [hfound, Option.getD_some] at hlexeme
  have hne := (hspelling.bounds (Dialect.standard_orderly.spelt hx.mem)).1
  exact ⟨_, _, _, h.token hlexeme rfl hne⟩

lemma longestAt_of_reaches {token : Token} {ctx' : Context} {p' : Position} {t' : Text}
    (hnext : Reaches Dialect.standard.lexicon source (ts ++ [token]) ctx' p' t')
    (hkind : ∃ role, token.kind = .keyword role) :
    ¬BehindDot ts ∧ ∃ role phrase x, LongestAt .standard t role phrase x ∧ token = keywordToken p role x := by
  generalize hts : ts ++ [token] = us at hnext
  cases hnext with
  | start => simp at hts
  | @token us ctx₀ p₀ text _ l hreach hl hsize hne =>
    obtain ⟨rfl, htoken⟩ := List.append_inj' hts rfl
    obtain ⟨rfl, rfl, rfl⟩ := h.unique hreach
    obtain rfl := (List.cons.inj htoken).1
    obtain ⟨role, hkind⟩ : ∃ role, l.kind = .keyword role := hkind
    rw [hleft.lexeme, Except.ok.injEq] at hl
    cases hkeyword : keyword? Dialect.standard.lexicon ctx (text ++ t') with
    | none =>
      exfalso
      rw [hkeyword, Option.getD_none] at hl
      cases hword : word? Dialect.standard.lexicon ctx (text ++ t') with
      | none =>
        rw [hword, Option.getD_none] at hl
        rw [← hl] at hkind
        simp [operator] at hkind
      | some l' =>
        rw [hword, Option.getD_some] at hl
        subst hl
        rcases kind_of_word hword with hk | hk | hk <;> simp [hk] at hkind
    | some l' =>
      rw [hkeyword, Option.getD_some] at hl
      subst hl
      obtain ⟨hdot, role', phrase, x, hx, rfl⟩ := longestAt_of_keyword? Dialect.standard_orderly hkeyword
      obtain ⟨rest', hsplit, -⟩ := hx.stands
      obtain ⟨rfl, -⟩ := List.append_inj hsplit hsize.symm
      refine ⟨fun hbehind => ?_, role', phrase, text, hx, rfl⟩
      rw [h.afterDot_iff.mpr hbehind] at hdot
      simp at hdot

end

/-- Keywords are recognised by maximal munch. At any place of a query that reading comes to and where the
rule for keywords is tried, it finds something if and only if the token before is not a dot and some phrase
of the vocabulary stands there. The next token is then the longest text that any phrase of any role stands
as, with the role of that phrase, and there is one such phrase only. -/
theorem keyword_is_longest_phrase (source : Text) (ts : List Token) (ctx : Context) (p : Position) (t : Text)
    (h : Reaches Dialect.standard.lexicon source ts ctx p t) (hleft : LeftToKeywords .standard ctx t) :
    ((∃ l, keyword? Dialect.standard.lexicon ctx t = some l) ↔
      ¬BehindDot ts ∧ ∃ role phrase x, phrase ∈ Dialect.standard.phrases role ∧ StandsAs phrase x t) ∧
    (∀ token, ((∃ role, token.kind = .keyword role) ∧
        ∃ ctx' p' t', Reaches Dialect.standard.lexicon source (ts ++ [token]) ctx' p' t') ↔
      ¬BehindDot ts ∧ ∃ role phrase x, LongestAt .standard t role phrase x ∧ token = keywordToken p role x) ∧
    ∀ role phrase x role' phrase' x', LongestAt .standard t role phrase x →
      LongestAt .standard t role' phrase' x' → role = role' ∧ phrase = phrase' ∧ x = x' := by
  refine ⟨⟨?_, ?_⟩, fun token => ⟨?_, ?_⟩, fun _ _ _ _ _ _ hx hx' => hx.unique Dialect.standard_orderly hx'⟩
  · rintro ⟨l, hl⟩
    obtain ⟨hdot, role, phrase, x, hx, -⟩ := longestAt_of_keyword? Dialect.standard_orderly hl
    refine ⟨fun hbehind => ?_, role, phrase, x, hx.mem, hx.stands⟩
    rw [h.afterDot_iff.mpr hbehind] at hdot
    simp at hdot
  · rintro ⟨hdot, role, phrase, x, hmem, hx⟩
    have hbefore : ctx.afterDot = false := Bool.eq_false_iff.mpr fun hafter => hdot (h.afterDot_iff.mp hafter)
    exact Option.ne_none_iff_exists'.mp (keyword?_ne_none Dialect.standard_orderly hbefore hmem hx)
  · rintro ⟨hkind, ctx', p', t', hnext⟩
    exact longestAt_of_reaches h hleft hnext hkind
  · rintro ⟨hdot, role, phrase, x, hx, rfl⟩
    exact ⟨⟨role, rfl⟩, reaches_keywordToken h hleft hdot hx⟩

theorem keyword_is_longest_phrase_of_schema :
    (∃ ctx p t, Reaches Dialect.standard.lexicon "set\t\u017fchema".toList
      [keywordToken .start .clause "set\t\u017fchema".toList] ctx p t) ∧
    ∃ ts ctx p, Reaches Dialect.standard.lexicon ".GO".toList ts ctx p "GO".toList ∧
      ¬∃ l, keyword? Dialect.standard.lexicon ctx "GO".toList = some l := by
  constructor
  · have hstands : StandsAs "SET SCHEMA".toList "set\t\u017fchema".toList "set\t\u017fchema".toList := by
      refine ⟨[], by simp, ?_, by decide⟩
      have hset : InAnyCase ['S', 'E', 'T'] ['s', 'e', 't'] := sameWord_iff.mp (by decide)
      have hschema : InAnyCase ['S', 'C', 'H', 'E', 'M', 'A'] ['\u017f', 'c', 'h', 'e', 'm', 'a'] :=
        sameWord_iff.mp (by decide)
      exact .words (b := ['\t']) hset (by simp) (by decide) (.word hschema)
    have hlongest : LongestAt .standard "set\t\u017fchema".toList .clause "SET SCHEMA".toList
        "set\t\u017fchema".toList := by
      refine ⟨by decide, hstands, ?_⟩
      rintro role q y - ⟨rest, hsplit, -⟩
      have hlength := congrArg List.length hsplit
      rw [List.length_append] at hlength
      omega
    have hspec := keyword_is_longest_phrase "set\t\u017fchema".toList [] .start .start _ .start
      ⟨by decide, by decide, by decide, rfl, by decide, by decide, by decide⟩
    exact ((hspec.2.1 _).mpr ⟨by simp [BehindDot], _, _, _, hlongest, rfl⟩).2
  · have hdot : lexeme Dialect.standard.lexicon .start (['.'] ++ ['G', 'O']) =
        .ok { kind := .operator, size := 1 } := by
      rw [lexeme_of_startsPlain (by decide), List.singleton_append,
        plain_sign _ _ (by decide) (by decide) (by decide)]
      rfl
    have hreach := Reaches.start.token hdot rfl (by simp)
    have hspec := keyword_is_longest_phrase ".GO".toList _ _ _ _ hreach
      ⟨by decide, by decide, by decide, rfl, by decide, by decide, by decide⟩
    refine ⟨_, _, _, hreach, fun hfound => ?_⟩
    exact (hspec.1.mp hfound).1 ⟨_, rfl, rfl⟩

end SqlLayout
