import Mathlib.Data.List.TakeWhile
import SqlLayout.Proofs.LetterCase
import SqlLayout.Proofs.LexemeSize

/-!
# What a phrase sees of a text

Whether a phrase stands at the head of a text depends only on the words that the text spells before
anything but words and blanks comes. Other blanks between the words, and anything behind them, make
no difference.
-/

namespace SqlLayout

namespace Text

lemma not_isWordChar_of_isBlank {c : Char} (h : isBlank c = true) : isWordChar c = false := by
  have hsmall : ∀ n, n < 128 → isBlank (Char.ofNat n) = true → isWordChar (Char.ofNat n) = false := by
    decide
  have hlarge : ∀ n ∈ [0x85, 0xa0, 0x1680, 0x2028, 0x2029, 0x202f, 0x205f, 0x3000] ++
      (List.range 11).map (0x2000 + ·), isWordChar (Char.ofNat n) = false := by
    decide +kernel
  by_cases hc : c.toNat < 128
  · exact ascii_forall (P := fun c => isBlank c = true → isWordChar c = false) hsmall hc h
  · have hmem : c.toNat ∈ [0x85, 0xa0, 0x1680, 0x2028, 0x2029, 0x202f, 0x205f, 0x3000] ++
        (List.range 11).map (0x2000 + ·) := by
      simp only [isBlank, Bool.or_eq_true, Bool.and_eq_true, decide_eq_true_eq, beq_iff_eq] at h
      simp only [List.mem_append, List.mem_cons, List.not_mem_nil, or_false, List.mem_map,
        List.mem_range]
      by_cases hr : 0x2000 ≤ c.toNat ∧ c.toNat ≤ 0x200a
      · exact .inr ⟨c.toNat - 0x2000, by omega, by omega⟩
      · left
        omega
    have hw := hlarge c.toNat hmem
    rwa [Char.ofNat_toNat] at hw

lemma not_isBlank_of_isWordChar {c : Char} (h : isWordChar c = true) : isBlank c = false := by
  cases hb : isBlank c with
  | false => rfl
  | true => simp [not_isWordChar_of_isBlank hb] at h

@[simp] lemma startsWord_cons (c : Char) (cs : Text) : startsWord (c :: cs) = isWordChar c := rfl

@[simp] lemma startsBlank_cons (c : Char) (cs : Text) : startsBlank (c :: cs) = isBlank c := rfl

lemma startsWord_append {x k : Text} (hx : x ≠ []) : (x ++ k).startsWord = x.startsWord := by
  cases x with
  | nil => exact absurd rfl hx
  | cons c cs => rfl

lemma startsBlank_append {x k : Text} (hx : x ≠ []) : (x ++ k).startsBlank = x.startsBlank := by
  cases x with
  | nil => exact absurd rfl hx
  | cons c cs => rfl

lemma startsWord_append_of_not {x k : Text} (hk : k.startsWord = false) :
    (x ++ k).startsWord = x.startsWord := by
  cases x with
  | nil => exact hk
  | cons c cs => rfl

lemma not_startsWord_of_startsBlank {t : Text} (h : t.startsBlank = true) :
    t.startsWord = false := by
  cases t with
  | nil => rfl
  | cons c cs => exact not_isWordChar_of_isBlank h

def endsWord (t : Text) : Bool :=
  t.getLast?.any isWordChar

lemma endsWord_append {a b : Text} (hb : b ≠ []) : endsWord (a ++ b) = endsWord b := by
  rw [endsWord, endsWord, List.getLast?_append, List.getLast?_eq_some_getLast hb, Option.some_or]

lemma endsWord_of_forall {x : Text} (hx : x ≠ []) (h : ∀ c ∈ x, isWordChar c = true) :
    endsWord x = true := by
  rw [endsWord, List.getLast?_eq_some_getLast hx]
  exact h _ (List.getLast_mem hx)

lemma takeWhile_word_append {x k : Text} {p : Char → Bool}
    (hp : ∀ c, p c = true → isWordChar c = true) (hk : k.startsWord = false) :
    (x ++ k).takeWhile p = x.takeWhile p := by
  have hnil : k.takeWhile p = [] := by
    cases k with
    | nil => rfl
    | cons c cs =>
      have hc : p c ≠ true := fun h => by simp [startsWord, hp c h] at hk
      simp [hc]
  induction x with
  | nil => exact hnil
  | cons c cs ih =>
    rw [List.cons_append, List.takeWhile_cons, List.takeWhile_cons, ih]

lemma takeWhile_of_word {x k : Text} (hx : ∀ c ∈ x, isWordChar c = true) (hk : k.startsWord = false) :
    (x ++ k).takeWhile isWordChar = x := by
  rw [takeWhile_word_append (fun _ h => h) hk, List.takeWhile_eq_self_iff.mpr hx]

lemma not_of_dropWhile_eq_cons {p : Char → Bool} {t : Text} {c : Char} {cs : Text}
    (h : t.dropWhile p = c :: cs) : p c = false := by
  have hc := List.head_dropWhile_not p (l := t) (by simp [h])
  simpa [h] using hc

lemma exists_word_append (t : Text) :
    ∃ v rest : Text, t = v ++ rest ∧ (∀ c ∈ v, isWordChar c = true) ∧ rest.startsWord = false := by
  refine ⟨t.takeWhile isWordChar, t.dropWhile isWordChar, List.takeWhile_append_dropWhile.symm,
    fun c hc => List.all_eq_true.mp List.all_takeWhile c hc, ?_⟩
  cases hd : t.dropWhile isWordChar with
  | nil => rfl
  | cons c cs => exact not_of_dropWhile_eq_cons hd

lemma startsBlank_trimStart (t : Text) : t.trimStart.startsBlank = false := by
  rw [trimStart]
  cases hd : t.dropWhile isBlank with
  | nil => rfl
  | cons c cs => exact not_of_dropWhile_eq_cons hd

lemma takeWhile_blank_append {b t : Text} (hb : b.isAllBlank = true) (ht : t.startsBlank = false) :
    (b ++ t).takeWhile isBlank = b := by
  have hnil : t.takeWhile isBlank = [] := by
    cases t with
    | nil => rfl
    | cons c cs =>
      have hc : isBlank c = false := ht
      simp [hc]
  rw [List.takeWhile_append_of_pos fun c hc => List.all_eq_true.mp hb c hc, hnil, List.append_nil]

lemma trimStart_blank_append {b t : Text} (hb : b.isAllBlank = true)
    (ht : t.startsBlank = false) : trimStart (b ++ t) = t := by
  have h := List.takeWhile_append_dropWhile (p := isBlank) (l := b ++ t)
  rw [takeWhile_blank_append hb ht] at h
  exact List.append_cancel_left h

/-! ### The words that a text spells -/

/-- The words at the head of a text with nothing but blanks between them. -/
def spelled (t : Text) : List Text :=
  words (t.takeWhile fun c => isWordChar c || isBlank c)

lemma words_blank_append {b t : Text} (hb : b.isAllBlank = true) : words (b ++ t) = words t := by
  induction b with
  | nil => rfl
  | cons c cs ih =>
    simp only [isAllBlank, List.all_cons, Bool.and_eq_true] at hb
    rw [List.cons_append, words, if_pos hb.1, ih hb.2]

lemma words_append {a b : Text} (hb : b = [] ∨ b.startsBlank = true) :
    words (a ++ b) = words a ++ words b := by
  induction a with
  | nil => rfl
  | cons c cs ih =>
    have hstop : ((cs ++ b).isEmpty || startsBlank (cs ++ b)) =
        (cs.isEmpty || startsBlank cs) := by
      cases cs with
      | nil =>
        rcases hb with rfl | hb
        · rfl
        · rw [List.nil_append, hb]
          simp
      | cons d ds => rfl
    rw [List.cons_append, words, words, hstop, ih]
    split
    · rfl
    · split
      · rfl
      · next hne =>
        cases hw : words cs with
        | nil =>
          exfalso
          cases cs with
          | nil => simp at hne
          | cons d ds =>
            simp only [List.isEmpty_cons, startsBlank, Bool.false_or] at hne
            rw [words, if_neg hne] at hw
            split at hw
            · simp at hw
            · split at hw <;> simp at hw
        | cons w ws => rfl

lemma words_of_solid {x : Text} (hx : x ≠ []) (h : ∀ c ∈ x, isBlank c = false) : words x = [x] := by
  induction x with
  | nil => exact absurd rfl hx
  | cons c cs ih =>
    rw [words, if_neg (by simp [h c])]
    cases cs with
    | nil => rfl
    | cons d ds =>
      have hd : isBlank d = false := h d (by simp)
      rw [ih (by simp) fun e he => h e (List.mem_cons_of_mem _ he)]
      simp [startsBlank, hd]

lemma startsBlank_collapse (t : Text) : startsBlank (collapse t) = startsBlank t := by
  fun_induction collapse t with
  | case1 => rfl
  | case2 c cs hc hs ih => rw [ih, hs, startsBlank_cons, hc]
  | case3 c cs hc hs ih =>
    rw [startsBlank_cons, startsBlank_cons, hc]
    decide
  | case4 c cs hc ih => rfl

lemma isEmpty_collapse (t : Text) : (collapse t).isEmpty = t.isEmpty := by
  fun_induction collapse t with
  | case2 c cs hc hs ih =>
    rw [ih]
    cases cs with
    | nil => simp [startsBlank] at hs
    | cons d ds => rfl
  | _ => rfl

lemma words_collapse (t : Text) : words (collapse t) = words t := by
  have hsp : isBlank ' ' = true := by decide
  fun_induction collapse t with
  | case1 => rfl
  | case2 c cs hc hs ih => rw [ih, words, if_pos hc]
  | case3 c cs hc hs ih => rw [words, if_pos hsp, ih, words, if_pos hc]
  | case4 c cs hc ih =>
    rw [words, if_neg hc, isEmpty_collapse, startsBlank_collapse, ih, words, if_neg hc]

lemma collapse_append_of_solid {v : Text} (hv : ∀ c ∈ v, isBlank c = false) (t : Text) :
    collapse (v ++ t) = v ++ collapse t := by
  induction v with
  | nil => rfl
  | cons c cs ih =>
    rw [List.cons_append, collapse, if_neg (by simp [hv c]), ih fun d hd => hv d (by simp [hd]),
      List.cons_append]

lemma mem_collapse {t : Text} {c : Char} (h : c ∈ collapse t) :
    c = ' ' ∨ c ∈ t ∧ isBlank c = false := by
  fun_induction collapse t with
  | case1 => simp at h
  | case2 d cs hd hs ih =>
    rcases ih h with h | h
    · exact .inl h
    · exact .inr ⟨List.mem_cons_of_mem _ h.1, h.2⟩
  | case3 d cs hd hs ih =>
    rcases List.mem_cons.mp h with rfl | h
    · exact .inl rfl
    · rcases ih h with h | h
      · exact .inl h
      · exact .inr ⟨List.mem_cons_of_mem _ h.1, h.2⟩
  | case4 d cs hd ih =>
    rcases List.mem_cons.mp h with rfl | h
    · exact .inr ⟨by simp, by simpa using hd⟩
    · rcases ih h with h | h
      · exact .inl h
      · exact .inr ⟨List.mem_cons_of_mem _ h.1, h.2⟩

lemma collapse_concat {c : Char} (hc : isBlank c = false) (t : Text) :
    collapse (t ++ [c]) = collapse t ++ [c] := by
  induction t with
  | nil => simp [collapse, hc]
  | cons d t ih =>
    have hstart : startsBlank (t ++ [c]) = startsBlank t := by
      cases t with
      | nil => exact hc
      | cons e t => rfl
    rw [List.cons_append, collapse, collapse, hstart, ih]
    split
    · split <;> rfl
    · rfl

lemma endsWord_collapse {t : Text} (h : endsWord t = true) : endsWord (collapse t) = true := by
  have hne : t ≠ [] := by
    rintro rfl
    simp [endsWord] at h
  obtain ⟨y, c, rfl⟩ : ∃ y c, t = y ++ [c] :=
    ⟨t.dropLast, t.getLast hne, (List.dropLast_concat_getLast hne).symm⟩
  have hc : isWordChar c = true := by simpa [endsWord] using h
  rw [collapse_concat (not_isBlank_of_isWordChar hc), endsWord_append (by simp)]
  simpa [endsWord] using hc

lemma collapse_blank_append {b t : Text} (hb : b.isAllBlank = true) (hne : b ≠ [])
    (ht : t.startsBlank = false) : collapse (b ++ t) = ' ' :: collapse t := by
  induction b with
  | nil => exact absurd rfl hne
  | cons c cs ih =>
    simp only [isAllBlank, List.all_cons, Bool.and_eq_true] at hb
    rw [List.cons_append, collapse, if_pos hb.1]
    cases cs with
    | nil => rw [List.nil_append, if_neg (by simp [ht])]
    | cons d ds =>
      have hd : isBlank d = true := by simp_all
      rw [if_pos (by simpa using hd), ih hb.2 (by simp)]

lemma spelled_blank_append {b t : Text} (hb : b.isAllBlank = true) :
    spelled (b ++ t) = spelled t := by
  have htake : (b ++ t).takeWhile (fun c => isWordChar c || isBlank c) =
      b ++ t.takeWhile fun c => isWordChar c || isBlank c := by
    apply List.takeWhile_append_of_pos
    intro c hc
    simp [List.all_eq_true.mp hb c hc]
  rw [spelled, htake, words_blank_append hb, spelled]

lemma spelled_append {x k : Text} (hx : (x.all fun c => isWordChar c || isBlank c) = true)
    (hk : k.startsWord = false) : spelled (x ++ k) = words x ++ spelled k := by
  have htake : (x ++ k).takeWhile (fun c => isWordChar c || isBlank c) =
      x ++ k.takeWhile fun c => isWordChar c || isBlank c := by
    apply List.takeWhile_append_of_pos
    exact fun c hc => List.all_eq_true.mp hx c hc
  rw [spelled, htake, words_append, spelled]
  cases k with
  | nil => exact .inl rfl
  | cons c cs =>
    have hc : isWordChar c = false := hk
    by_cases hb : isBlank c = true
    · right
      simp [hc, hb, startsBlank]
    · left
      simp [hc, hb]

lemma spelled_eq_nil {t : Text} (hw : t.startsWord = false) (hb : t.startsBlank = false) :
    spelled t = [] := by
  cases t with
  | nil => rfl
  | cons c cs => simp_all [spelled, words]

lemma spelled_trimStart (t : Text) : spelled t.trimStart = spelled t := by
  have hb : isAllBlank (t.takeWhile isBlank) = true := List.all_takeWhile
  rw [← spelled_blank_append hb, trimStart, List.takeWhile_append_dropWhile]

lemma spelled_append_of_stop {x k : Text}
    (hx : (x.all fun c => isWordChar c || isBlank c) = false) : spelled (x ++ k) = spelled x := by
  rw [spelled, spelled]
  congr 1
  induction x with
  | nil => simp at hx
  | cons c cs ih =>
    rw [List.cons_append, List.takeWhile_cons, List.takeWhile_cons]
    split
    · next hc =>
      rw [ih]
      simpa [hc] using hx
    · rfl

end Text

/-! ### Phrases at the head of a text -/

lemma drop_length_takeWhile (t : Text) :
    t.drop (t.takeWhile Text.isBlank).length = t.trimStart := by
  have h := List.takeWhile_append_dropWhile (p := Text.isBlank) (l := t)
  have hdrop := congrArg (List.drop (t.takeWhile Text.isBlank).length) h
  rw [List.drop_left] at hdrop
  exact hdrop.symm

/-- A word as a vocabulary spells it: one or more word characters of ASCII. -/
def Spelt (w : Text) : Prop :=
  w ≠ [] ∧ ∀ a ∈ w, a.toNat < 128 ∧ Text.isWordChar a = true

/-- Whether a word of a phrase is the given word in any letter case. -/
def sameWord (w v : Text) : Bool :=
  w.length == v.length && startsWithWord w v

/-- Whether the words of a phrase are the first of the given ones. -/
def spells : List Text → List Text → Bool
  | w :: ws, v :: vs => sameWord w v && (ws.isEmpty || spells ws vs)
  | _, _ => false

section

variable {w v rest : Text} (hw : Spelt w) (hv : ∀ c ∈ v, Text.isWordChar c = true)
  (hr : rest.startsWord = false)
include hv hr

lemma startsWord_drop {n : Nat} (hn : n ≤ v.length) :
    Text.startsWord ((v ++ rest).drop n) = decide (n < v.length) := by
  rw [List.drop_append_of_le_length hn]
  cases hd : v.drop n with
  | nil =>
    have := List.drop_eq_nil_iff.mp hd
    rw [List.nil_append, hr]
    simpa using this
  | cons c cs =>
    have hc : c ∈ v := List.mem_of_mem_drop (i := n) (by simp [hd])
    have hlt : n < v.length := by
      rcases Nat.lt_or_ge n v.length with h | h
      · exact h
      · simp [List.drop_eq_nil_of_le h] at hd
    simp [hv c hc, hlt]

include hw

lemma startsWithWord_append : startsWithWord w (v ++ rest) = startsWithWord w v := by
  obtain ⟨-, hw⟩ := hw
  induction w generalizing v with
  | nil => cases v <;> simp [startsWithWord]
  | cons a as ih =>
    cases v with
    | nil =>
      cases rest with
      | nil => rfl
      | cons c cs =>
        have hac : sameLetter a c = false := by
          cases h : sameLetter a c with
          | false => rfl
          | true =>
            have ha := hw a (by simp)
            have hc := isWordChar_of_sameLetter ha.1 ha.2 h
            simp [hc] at hr
        simp [startsWithWord, hac]
    | cons c cs =>
      rw [List.cons_append, startsWithWord, startsWithWord,
        ih (fun d hd => hv d (by simp [hd])) fun b hb => hw b (by simp [hb])]

lemma phraseSize?_single :
    phraseSize? [w] (v ++ rest) = if sameWord w v then some v.length else none := by
  rw [phraseSize?, wordsSize?, startsWithWord_append hw hv hr, sameWord]
  by_cases hs : startsWithWord w v = true
  · have hle := length_le_of_startsWithWord hs
    have hpos := List.length_pos_iff.mpr hw.1
    have hbefore := startsWord_drop hv hr (n := w.length - 1) (by omega)
    have hbehind := startsWord_drop hv hr hle
    have hb : Text.boundaryAt (v ++ rest) w.length = (w.length == v.length) := by
      rw [Text.boundaryAt, hbefore, hbehind]
      by_cases heq : w.length = v.length
      · simp [heq]
        omega
      · have hlt : w.length < v.length := by omega
        have hlt' : w.length - 1 < v.length := by omega
        simp [heq, hlt, hlt']
    rw [if_pos hs, Option.filter_some, hb]
    by_cases heq : w.length = v.length <;> simp [heq, hs]
  · simp [hs]

lemma phraseSize?_cons {ws : List Text} (hws : ws ≠ []) (hspelt : ∀ u ∈ ws, Spelt u) :
    phraseSize? (w :: ws) (v ++ rest) =
      if sameWord w v && rest.startsBlank then
        (phraseSize? ws rest.trimStart).map (v.length + (rest.takeWhile Text.isBlank).length + ·)
      else none := by
  obtain ⟨u, us, rfl⟩ := List.exists_cons_of_ne_nil hws
  rw [phraseSize?, wordsSize?, startsWithWord_append hw hv hr, sameWord]
  · by_cases hs : startsWithWord w v = true
    · have hle := length_le_of_startsWithWord hs
      rw [if_pos hs]
      by_cases heq : w.length = v.length
      · have hdrop : (v ++ rest).drop w.length = rest := by rw [heq, List.drop_left]
        simp only [hdrop]
        by_cases hb : rest.startsBlank = true
        · have hgap := length_blanks_pos hb
          rw [if_neg (by omega), if_pos (by simp [heq, hs, hb])]
          have htrim : rest.drop (rest.takeWhile Text.isBlank).length = rest.trimStart :=
            drop_length_takeWhile rest
          rw [htrim, phraseSize?]
          cases hm : wordsSize? (u :: us) rest.trimStart with
          | none => rfl
          | some m =>
            have hpos := (wordsSize?_bounds (fun x hx => (hspelt x hx).1) hm).1
            have hd : ∀ k, (v ++ rest).drop
                (w.length + (rest.takeWhile Text.isBlank).length + k) = rest.trimStart.drop k := by
              intro k
              rw [← htrim, List.drop_drop, Nat.add_assoc, ← List.drop_drop, hdrop]
            have hbound : Text.boundaryAt (v ++ rest)
                (w.length + (rest.takeWhile Text.isBlank).length + m) =
                Text.boundaryAt rest.trimStart m := by
              rw [Text.boundaryAt, Text.boundaryAt, hd m, ← hd (m - 1)]
              congr 4
              omega
            rw [Option.map_some, Option.filter_some, Option.filter_some, hbound]
            split <;> simp [heq]
        · have hnil : rest.takeWhile Text.isBlank = [] := by
            cases rest with
            | nil => rfl
            | cons c cs =>
              have hc : Text.isBlank c = false := by simpa using hb
              simp [hc]
          simp [hnil, hb]
      · have hlt : w.length < v.length := by omega
        have hword := startsWord_drop hv hr hle
        have hnil : ((v ++ rest).drop w.length).takeWhile Text.isBlank = [] := by
          cases hd : (v ++ rest).drop w.length with
          | nil => rfl
          | cons c cs =>
            rw [hd] at hword
            simp only [Text.startsWord_cons, hlt, decide_true] at hword
            simp [Text.not_isBlank_of_isWordChar hword]
        simp [hnil, heq]
    · simp [hs]
  · simp

end

/-- Whether a phrase stands at the head of a text depends on the words that the text spells. -/
lemma isSome_phraseSize? {ws : List Text} (hws : ∀ u ∈ ws, Spelt u) {t : Text}
    (ht : t.startsBlank = false) : (phraseSize? ws t).isSome = spells ws t.spelled := by
  induction ws generalizing t with
  | nil => simp [phraseSize?, wordsSize?, spells]
  | cons w ws ih =>
    have hw := hws w (by simp)
    have hrest : ∀ u ∈ ws, Spelt u := fun u hu => hws u (by simp [hu])
    obtain ⟨v, rest, rfl, hv, hr⟩ := Text.exists_word_append t
    have hspelled : (v ++ rest).spelled = if v = [] then [] else v :: rest.spelled := by
      split
      · next h =>
        subst h
        exact Text.spelled_eq_nil hr ht
      · next h =>
        rw [Text.spelled_append (by simpa using fun c hc => .inl (hv c hc)) hr,
          Text.words_of_solid h fun c hc => Text.not_isBlank_of_isWordChar (hv c hc)]
        rfl
    have hnil : sameWord w [] = false := by
      simpa [sameWord] using fun h => absurd h hw.1
    rw [hspelled]
    by_cases he : ws = []
    · subst he
      rw [phraseSize?_single hw hv hr]
      by_cases hv0 : v = []
      · simp [hv0, hnil, spells]
      · cases hs : sameWord w v <;> simp [hv0, hs, spells]
    · rw [phraseSize?_cons hw hv hr he hrest]
      by_cases hv0 : v = []
      · simp [hv0, hnil, spells]
      · have hlater : (rest.startsBlank && (phraseSize? ws rest.trimStart).isSome) =
            spells ws rest.spelled := by
          cases hb : rest.startsBlank with
          | true =>
            rw [ih hrest (Text.startsBlank_trimStart rest), Text.spelled_trimStart]
            rfl
          | false =>
            obtain ⟨u, us, rfl⟩ := List.exists_cons_of_ne_nil he
            simp [Text.spelled_eq_nil hr hb, spells]
        rw [if_neg hv0, spells, ← hlater]
        cases hs : sameWord w v <;> cases hb : rest.startsBlank <;> simp [he]

lemma phraseSize?_parts {w : Text} {ws : List Text} (hw : Spelt w) (hws : ∀ u ∈ ws, Spelt u)
    {x rest : Text} (h : phraseSize? (w :: ws) (x ++ rest) = some x.length) :
    (ws = [] ∧ sameWord w x = true ∧ (∀ c ∈ x, Text.isWordChar c = true) ∧
      rest.startsWord = false) ∨
    (ws ≠ [] ∧ ∃ v b y : Text, x = v ++ (b ++ y) ∧ sameWord w v = true ∧
      (∀ c ∈ v, Text.isWordChar c = true) ∧ b ≠ [] ∧ b.isAllBlank = true ∧
      y ≠ [] ∧ y.startsBlank = false ∧ phraseSize? ws (y ++ rest) = some y.length) := by
  obtain ⟨v, r, hsplit, hv, hr⟩ := Text.exists_word_append (x ++ rest)
  rw [hsplit] at h
  by_cases he : ws = []
  · subst he
    rw [phraseSize?_single hw hv hr] at h
    split at h
    · next hs =>
      obtain ⟨rfl, rfl⟩ := List.append_inj hsplit (Option.some.inj h).symm
      exact .inl ⟨rfl, hs, hv, hr⟩
    · simp at h
  · rw [phraseSize?_cons hw hv hr he hws] at h
    split at h
    · next hs =>
      rw [Bool.and_eq_true] at hs
      obtain ⟨m, hm, hlen⟩ := Option.map_eq_some_iff.mp h
      have hb := length_blanks_pos hs.2
      have hbounds := wordsSize?_bounds (fun u hu => (hws u hu).1) (Option.filter_eq_some_iff.mp hm).1
      have hr' : r = r.takeWhile Text.isBlank ++ r.trimStart :=
        List.takeWhile_append_dropWhile.symm
      have hy : r.trimStart = r.trimStart.take m ++ r.trimStart.drop m :=
        (List.take_append_drop ..).symm
      have hym : (r.trimStart.take m).length = m := List.length_take_of_le hbounds.2
      have hsplit' : x ++ rest =
          (v ++ (r.takeWhile Text.isBlank ++ r.trimStart.take m)) ++ r.trimStart.drop m := by
        rw [hsplit, List.append_assoc, List.append_assoc, ← hy, ← hr']
      obtain ⟨hx, hrest⟩ := List.append_inj hsplit' (by simp only [List.length_append]; omega)
      have hne : r.trimStart.take m ≠ [] := List.ne_nil_of_length_pos (by omega)
      refine .inr ⟨he, v, r.takeWhile Text.isBlank, r.trimStart.take m, hx, hs.1, hv,
        List.ne_nil_of_length_pos hb, List.all_takeWhile, hne, ?_, ?_⟩
      · have := Text.startsBlank_trimStart r
        rwa [hy, Text.startsBlank_append hne] at this
      · rw [hrest, ← hy, hym, hm]
    · simp at h

lemma phraseSize?_collapse {ws : List Text} (hws : ∀ u ∈ ws, Spelt u) {x rest k : Text}
    (h : phraseSize? ws (x ++ rest) = some x.length) (hk : k.startsWord = false) :
    phraseSize? ws (x.collapse ++ k) = some x.collapse.length := by
  induction ws generalizing x with
  | nil => simp [phraseSize?, wordsSize?] at h
  | cons w ws ih =>
    have hw := hws w (by simp)
    have hrest : ∀ u ∈ ws, Spelt u := fun u hu => hws u (by simp [hu])
    rcases phraseSize?_parts hw hrest h with ⟨rfl, hs, hx, -⟩ |
      ⟨he, v, b, y, rfl, hs, hv, hb0, hb, hy0, hy, hm⟩
    · have hsolid : ∀ c ∈ x, Text.isBlank c = false :=
        fun c hc => Text.not_isBlank_of_isWordChar (hx c hc)
      have hcol : x.collapse = x := by
        simpa [Text.collapse] using Text.collapse_append_of_solid hsolid []
      rw [hcol, phraseSize?_single hw hx hk, if_pos hs]
    · have hsolid : ∀ c ∈ v, Text.isBlank c = false :=
        fun c hc => Text.not_isBlank_of_isWordChar (hv c hc)
      have hcol : Text.collapse (v ++ (b ++ y)) = v ++ ' ' :: y.collapse := by
        rw [Text.collapse_append_of_solid hsolid, Text.collapse_blank_append hb hb0 hy]
      have hne : y.collapse ≠ [] := by
        intro h0
        have := Text.isEmpty_collapse y
        rw [h0] at this
        exact hy0 (List.isEmpty_iff.mp this.symm)
      have hstart : (y.collapse ++ k).startsBlank = false := by
        rw [Text.startsBlank_append hne, Text.startsBlank_collapse, hy]
      have hsp : Text.isAllBlank [' '] = true := by decide
      have htake : (' ' :: y.collapse ++ k).takeWhile Text.isBlank = [' '] :=
        Text.takeWhile_blank_append hsp hstart
      have htrim : Text.trimStart (' ' :: y.collapse ++ k) = y.collapse ++ k :=
        Text.trimStart_blank_append hsp hstart
      have hblank : Text.startsBlank (' ' :: y.collapse ++ k) = true :=
        show Text.isBlank ' ' = true by decide
      rw [hcol, List.append_assoc,
        phraseSize?_cons hw hv (Text.not_startsWord_of_startsBlank hblank) he hrest, htake, htrim,
        ih hrest hm, if_pos (by rw [hs, hblank]; rfl)]
      simp only [Option.map_some, List.length_append, List.length_cons, List.length_nil]
      congr 1
      omega

lemma phraseSize?_shape {ws : List Text} (hws : ∀ u ∈ ws, Spelt u) {x rest : Text}
    (h : phraseSize? ws (x ++ rest) = some x.length) :
    (x.all fun c => Text.isWordChar c || Text.isBlank c) = true ∧ x.endsWord = true ∧
      rest.startsWord = false := by
  induction ws generalizing x with
  | nil => simp [phraseSize?, wordsSize?] at h
  | cons w ws ih =>
    have hrest : ∀ u ∈ ws, Spelt u := fun u hu => hws u (by simp [hu])
    have hw := hws w (by simp)
    rcases phraseSize?_parts hw hrest h with ⟨-, hs, hx, hr⟩ |
      ⟨-, v, b, y, rfl, -, hv, -, hb, hy0, -, hm⟩
    · have hne : x ≠ [] := by
        rintro rfl
        rw [sameWord, Bool.and_eq_true] at hs
        exact hw.1 (by simpa using hs.1)
      exact ⟨by simpa using fun c hc => .inl (hx c hc), Text.endsWord_of_forall hne hx, hr⟩
    · obtain ⟨hy, he, hr⟩ := ih hrest hm
      refine ⟨?_, ?_, hr⟩
      · rw [List.all_append, List.all_append, hy, Bool.and_true, Bool.and_eq_true]
        exact ⟨by simpa using fun c hc => .inl (hv c hc),
          by simpa using fun c hc => .inr (List.all_eq_true.mp hb c hc)⟩
      · rw [Text.endsWord_append (by simp [hy0]), Text.endsWord_append hy0, he]

end SqlLayout
