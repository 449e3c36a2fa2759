import SqlLayout.Proofs.Phrases
import SqlLayout.Proofs.Vocabulary

/-!
# Where a lexeme ends

A word, a number or a keyword ends where no word character follows, whatever else stands there. So
the same text is found again in front of anything that does not run on from it.
-/

namespace SqlLayout

namespace Text

/-- A text without a minus sign at its start. -/
def unsigned : Text → Text
  | '-' :: t => t
  | t => t

/-- Whether a text is a decimal number without a fraction. -/
def isWhole (t : Text) : Bool :=
  !(unsigned t).isEmpty && (unsigned t).all Char.isDigit

end Text

/-- The number of digits in the fraction that a text begins with, behind its point. -/
def fractionSize? : Text → Option Nat
  | '.' :: t => digitsSize? Char.isDigit t
  | _ => none

lemma toNat_lt_of_isDigit {c : Char} (h : c.isDigit = true) : c.toNat < 128 := by
  simp only [Char.isDigit, Bool.and_eq_true, decide_eq_true_eq] at h
  exact Nat.lt_of_le_of_lt h.2 (by decide)

lemma isWordChar_of_isDigit {c : Char} (h : c.isDigit = true) : Text.isWordChar c = true :=
  Text.ascii_forall (P := fun c => c.isDigit = true → Text.isWordChar c = true)
    (by decide) (toNat_lt_of_isDigit h) h

lemma isWordChar_of_isHexDigit {c : Char} (h : isHexDigit c = true) :
    Text.isWordChar c = true := by
  have hc : c.toNat < 128 := by
    simp only [isHexDigit, Char.isDigit, Bool.or_eq_true, Bool.and_eq_true,
      decide_eq_true_eq] at h
    have : c.val.toNat ≤ 102 := by
      rcases h with (h | h) | h
      · exact Nat.le_trans h.2 (by decide)
      · exact h.2
      · exact Nat.le_trans h.2 (by decide)
    exact Nat.lt_of_le_of_lt this (by decide)
  exact Text.ascii_forall (P := fun c => isHexDigit c = true → Text.isWordChar c = true)
    (by decide) hc h

lemma isWordChar_of_isBinaryDigit {c : Char} (h : isBinaryDigit c = true) :
    Text.isWordChar c = true := by
  simp only [isBinaryDigit, Bool.or_eq_true, beq_iff_eq] at h
  rcases h with rfl | rfl <;> decide

/-! ### Numbers -/

lemma Text.unsigned_cons {c : Char} {cs : Text} (hc : c ≠ '-') :
    Text.unsigned (c :: cs) = c :: cs := by
  rw [Text.unsigned.eq_def]
  split <;> simp_all

lemma decimalSize?_eq (t : Text) :
    decimalSize? t =
      if (t.takeWhile Char.isDigit).length = 0 then none
      else
        match fractionSize? (t.drop (t.takeWhile Char.isDigit).length) with
        | some m => some ((t.takeWhile Char.isDigit).length + 1 + m)
        | none => digitsSize? Char.isDigit t := by
  rw [decimalSize?, fractionSize?.eq_def]
  by_cases h0 : (t.takeWhile Char.isDigit).length = 0
  · have hd : digitsSize? Char.isDigit t = none := by simp [digitsSize?, h0]
    simp only [h0, if_true, hd]
    split
    · next hm => split at hm <;> simp at hm
    · rfl
  · simp only [h0, if_false]
    rfl

lemma basedSize?_cons (c d : Char) (r : Text) :
    basedSize? (c :: d :: r) =
      if c = '0' ∧ d = 'x' then (digitsSize? isHexDigit r).map (· + 2)
      else if c = '0' ∧ d = 'b' then (digitsSize? isBinaryDigit r).map (· + 2)
      else none := by
  by_cases hx : c = '0' ∧ d = 'x'
  · obtain ⟨rfl, rfl⟩ := hx
    rfl
  by_cases hb : c = '0' ∧ d = 'b'
  · obtain ⟨rfl, rfl⟩ := hb
    rfl
  rw [if_neg hx, if_neg hb, basedSize?.eq_def]
  split <;> simp_all

lemma numberSize?_cons (c : Char) (r : Text) :
    numberSize? (c :: r) =
      (basedSize? (c :: r)).or
        (if c = '-' then (decimalSize? r).map (· + 1) else decimalSize? (c :: r)) := by
  rw [numberSize?.eq_def, Option.orElse_eq_orElse, Option.orElse_eq_or]
  congr 1
  by_cases hc : c = '-'
  · subst hc
    rfl
  · rw [if_neg hc]
    split <;> simp_all

section

variable {x k : Text} (hk : k.startsWord = false)
include hk

lemma digitsSize?_append {p : Char → Bool} (hp : ∀ c, p c = true → Text.isWordChar c = true) :
    digitsSize? p (x ++ k) = digitsSize? p x := by
  rw [digitsSize?, digitsSize?, Text.takeWhile_word_append hp hk,
    List.drop_append_of_le_length (length_takeWhile_le p x), Text.startsWord_append_of_not hk]

lemma fractionSize?_append (hx : x ≠ []) : fractionSize? (x ++ k) = fractionSize? x := by
  obtain ⟨c, cs, rfl⟩ := List.exists_cons_of_ne_nil hx
  by_cases hc : c = '.'
  · subst hc
    exact digitsSize?_append hk fun _ => isWordChar_of_isDigit
  · rw [List.cons_append, fractionSize?.eq_def, fractionSize?.eq_def]
    simp_all

lemma decimalSize?_append
    (hf : x ≠ [] → x.all Char.isDigit = true → fractionSize? k = none) :
    decimalSize? (x ++ k) = decimalSize? x := by
  rw [decimalSize?_eq, decimalSize?_eq,
    Text.takeWhile_word_append (fun _ => isWordChar_of_isDigit) hk]
  by_cases h0 : (x.takeWhile Char.isDigit).length = 0
  · rw [if_pos h0, if_pos h0]
  have hfrac : fractionSize? ((x ++ k).drop (x.takeWhile Char.isDigit).length) =
      fractionSize? (x.drop (x.takeWhile Char.isDigit).length) := by
    rw [List.drop_append_of_le_length (length_takeWhile_le Char.isDigit x)]
    by_cases hd : x.drop (x.takeWhile Char.isDigit).length = []
    · have htake : x.takeWhile Char.isDigit = x :=
        (List.takeWhile_prefix Char.isDigit).eq_of_length_le (List.drop_eq_nil_iff.mp hd)
      have hall : x.all Char.isDigit = true := htake ▸ List.all_takeWhile
      have hx : x ≠ [] := by
        rintro rfl
        exact h0 rfl
      rw [hd, List.nil_append, hf hx hall]
      rfl
    · exact fractionSize?_append hk hd
  rw [if_neg h0, if_neg h0, hfrac, digitsSize?_append hk fun _ => isWordChar_of_isDigit]

lemma basedSize?_append (hx : x ≠ []) : basedSize? (x ++ k) = basedSize? x := by
  match x, hx with
  | [c], _ =>
    cases k with
    | nil => rfl
    | cons d ds =>
      have hd : d ≠ 'x' ∧ d ≠ 'b' := by
        constructor <;>
        · rintro rfl
          revert hk
          rw [Text.startsWord_cons]
          decide
      have hone : basedSize? [c] = none := by simp [basedSize?.eq_def]
      rw [List.cons_append, List.nil_append, basedSize?_cons, if_neg (by simp [hd]),
        if_neg (by simp [hd]), hone]
  | c :: d :: r, _ =>
    rw [List.cons_append, List.cons_append, basedSize?_cons, basedSize?_cons,
      digitsSize?_append hk fun _ => isWordChar_of_isHexDigit,
      digitsSize?_append hk fun _ => isWordChar_of_isBinaryDigit]

/-- A number is found again in front of anything but a word character and, if it is whole, a
fraction. -/
lemma numberSize?_append (hx : x ≠ []) (hf : x.isWhole = true → fractionSize? k = none) :
    numberSize? (x ++ k) = numberSize? x := by
  obtain ⟨c, cs, rfl⟩ := List.exists_cons_of_ne_nil hx
  rw [numberSize?_cons, List.cons_append, numberSize?_cons, ← List.cons_append,
    basedSize?_append hk hx]
  by_cases hc : c = '-'
  · rw [if_pos hc, if_pos hc, decimalSize?_append hk]
    intro hcs hall
    apply hf
    simp [Text.isWhole, Text.unsigned, hc, hcs, hall]
  · rw [if_neg hc, if_neg hc, decimalSize?_append hk]
    intro _ hall
    apply hf
    rw [Text.isWhole, Text.unsigned_cons hc]
    simpa using hall

end

lemma digitsSize?_spec {p : Char → Bool} {t : Text} {n : Nat} (h : digitsSize? p t = some n) :
    ∃ ds r : Text, t = ds ++ r ∧ ds.length = n ∧ ds ≠ [] ∧ (∀ c ∈ ds, p c = true) ∧
      r.startsWord = false := by
  rw [digitsSize?] at h
  split at h
  · simp at h
  · next hb =>
    obtain rfl := Option.some.inj h
    rw [not_or] at hb
    refine ⟨t.takeWhile p, t.drop (t.takeWhile p).length, ?_, rfl, ?_, ?_, by simpa using hb.2⟩
    · exact (List.prefix_iff_eq_append.mp (List.takeWhile_prefix p)).symm
    · exact fun h0 => hb.1 (by simp [h0])
    · exact fun c hc => List.all_eq_true.mp List.all_takeWhile c hc

def startsDigit : Text → Bool
  | [] => false
  | c :: _ => c.isDigit

lemma startsDigit_append {x k : Text} (hx : x ≠ []) : startsDigit (x ++ k) = startsDigit x := by
  obtain ⟨c, cs, rfl⟩ := List.exists_cons_of_ne_nil hx
  rfl

lemma startsDigit_of_forall {x : Text} (hx : x ≠ []) (h : ∀ c ∈ x, c.isDigit = true) :
    startsDigit x = true := by
  obtain ⟨c, cs, rfl⟩ := List.exists_cons_of_ne_nil hx
  exact h c (by simp)

lemma decimalSize?_spec {t : Text} {n : Nat} (h : decimalSize? t = some n) :
    ∃ ds r : Text, t = ds ++ r ∧ ds.length = n ∧ startsDigit ds = true ∧ ds.endsWord = true ∧
      r.startsWord = false := by
  rw [decimalSize?_eq] at h
  split at h
  · simp at h
  · next h0 =>
    split at h
    · next m hm =>
      rw [fractionSize?.eq_def] at hm
      split at hm
      · next rest hd =>
        obtain ⟨es, r, rfl, hlen, hne, hes, hr⟩ := digitsSize?_spec hm
        have ht : t = t.takeWhile Char.isDigit ++ '.' :: (es ++ r) := by
          rw [← hd]
          exact (List.prefix_iff_eq_append.mp (List.takeWhile_prefix _)).symm
        have hne' : t.takeWhile Char.isDigit ≠ [] := fun hn => h0 (by simp [hn])
        refine ⟨t.takeWhile Char.isDigit ++ '.' :: es, r, ?_, ?_, ?_, ?_, hr⟩
        · rw [List.append_assoc, List.cons_append, ← ht]
        · rw [List.length_append, List.length_cons, ← Option.some.inj h]
          omega
        · rw [startsDigit_append hne']
          exact startsDigit_of_forall hne' fun c hc => List.all_eq_true.mp List.all_takeWhile c hc
        · rw [Text.endsWord_append (by simp), ← List.singleton_append, Text.endsWord_append hne]
          exact Text.endsWord_of_forall hne fun c hc => isWordChar_of_isDigit (hes c hc)
      · simp at hm
    · obtain ⟨ds, r, rfl, hlen, hne, hds, hr⟩ := digitsSize?_spec h
      exact ⟨ds, r, rfl, hlen, startsDigit_of_forall hne hds,
        Text.endsWord_of_forall hne fun c hc => isWordChar_of_isDigit (hds c hc), hr⟩

lemma basedSize?_spec {t : Text} {n : Nat} (h : basedSize? t = some n) :
    ∃ ds r : Text, t = ds ++ r ∧ ds.length = n ∧ startsDigit ds = true ∧ ds.endsWord = true ∧
      r.startsWord = false := by
  match t with
  | [] | [_] => simp [basedSize?.eq_def] at h
  | c :: d :: t =>
    have hdigits : ∀ p : Char → Bool, (∀ c, p c = true → Text.isWordChar c = true) → c = '0' →
        (digitsSize? p t).map (· + 2) = some n →
        ∃ ds r : Text, c :: d :: t = ds ++ r ∧ ds.length = n ∧ startsDigit ds = true ∧
          ds.endsWord = true ∧ r.startsWord = false := by
      rintro p hp rfl hmap
      obtain ⟨m, hm, rfl⟩ := Option.map_eq_some_iff.mp hmap
      obtain ⟨ds, r, rfl, rfl, hne, hds, hr⟩ := digitsSize?_spec hm
      refine ⟨'0' :: d :: ds, r, rfl, rfl, rfl, ?_, hr⟩
      rw [← List.singleton_append, Text.endsWord_append (by simp), ← List.singleton_append,
        Text.endsWord_append hne]
      exact Text.endsWord_of_forall hne fun c hc => hp c (hds c hc)
    rw [basedSize?_cons] at h
    split at h
    · next hc => exact hdigits _ (fun _ => isWordChar_of_isHexDigit) hc.1 h
    · split at h
      · next hc => exact hdigits _ (fun _ => isWordChar_of_isBinaryDigit) hc.1 h
      · simp at h

lemma numberSize?_spec {t : Text} {n : Nat} (h : numberSize? t = some n) :
    ∃ ds r : Text, t = ds ++ r ∧ ds.length = n ∧
      (startsDigit ds = true ∨ ∃ es, ds = '-' :: es ∧ startsDigit es = true) ∧
      ds.endsWord = true ∧ r.startsWord = false := by
  cases t with
  | nil => simp [numberSize?, basedSize?, decimalSize?, digitsSize?] at h
  | cons c t =>
    rw [numberSize?_cons, Option.or_eq_some_iff] at h
    rcases h with hb | ⟨-, hd⟩
    · obtain ⟨ds, r, ht, hlen, hs, he, hr⟩ := basedSize?_spec hb
      exact ⟨ds, r, ht, hlen, .inl hs, he, hr⟩
    · split at hd
      · next hc =>
        obtain ⟨m, hm, rfl⟩ := Option.map_eq_some_iff.mp hd
        obtain ⟨ds, r, rfl, rfl, hs, he, hr⟩ := decimalSize?_spec hm
        have hne : ds ≠ [] := by
          rintro rfl
          simp [startsDigit] at hs
        refine ⟨'-' :: ds, r, by rw [hc]; rfl, rfl, .inr ⟨ds, rfl, hs⟩, ?_, hr⟩
        rw [← List.singleton_append, Text.endsWord_append hne, he]
      · obtain ⟨ds, r, ht, hlen, hs, he, hr⟩ := decimalSize?_spec hd
        exact ⟨ds, r, ht, hlen, .inl hs, he, hr⟩

lemma numberSize?_eq_none {c : Char} {r : Text} (hm : c ≠ '-') (hd : c.isDigit = false) :
    numberSize? (c :: r) = none := by
  cases hn : numberSize? (c :: r) with
  | none => rfl
  | some n =>
    obtain ⟨ds, r', ht, -, hs | ⟨es, rfl, -⟩, -, -⟩ := numberSize?_spec hn
    · cases ds with
      | nil => simp [startsDigit] at hs
      | cons d ds =>
        obtain ⟨rfl, -⟩ := List.cons.inj ht
        simp [startsDigit, hd] at hs
    · exact absurd (List.cons.inj ht).1 hm

lemma numberSize?_fraction {x k : Text} {m : Nat} (hx : x.isWhole = true)
    (hk : fractionSize? k = some m) : numberSize? (x ++ k) = some (x.length + 1 + m) := by
  obtain ⟨k, rfl⟩ : ∃ r, k = '.' :: r := by
    rw [fractionSize?.eq_def] at hk
    split at hk
    · exact ⟨_, rfl⟩
    · simp at hk
  have hdecimal : ∀ ds : Text, ds ≠ [] → ds.all Char.isDigit = true →
      decimalSize? (ds ++ '.' :: k) = some (ds.length + 1 + m) := by
    intro ds hne hds
    have htake : (ds ++ '.' :: k).takeWhile Char.isDigit = ds := by
      rw [List.takeWhile_append_of_pos (List.all_eq_true.mp hds)]
      simp
    rw [decimalSize?_eq, htake, if_neg (by simpa using hne), List.drop_left, hk]
  rw [Text.isWhole, Bool.and_eq_true] at hx
  cases x with
  | nil => simp [Text.unsigned] at hx
  | cons c x =>
    by_cases hc : c = '-'
    · subst hc
      have hbased : basedSize? ('-' :: (x ++ '.' :: k)) = none := by
        cases hb : basedSize? ('-' :: (x ++ '.' :: k)) with
        | none => rfl
        | some n => simp [basedSize?.eq_def] at hb
      rw [List.cons_append, numberSize?_cons, hbased, if_pos rfl,
        hdecimal x (by simpa [Text.unsigned] using hx.1) (by simpa [Text.unsigned] using hx.2)]
      simp only [Option.map_some, Option.none_or, List.length_cons]
      congr 1
      omega
    · rw [Text.unsigned_cons hc] at hx
      have hbased : basedSize? (c :: x ++ '.' :: k) = none := by
        cases x with
        | nil => simp [basedSize?_cons]
        | cons d x =>
          have hd : d.isDigit = true := List.all_eq_true.mp hx.2 d (by simp)
          have hx' : d ≠ 'x' ∧ d ≠ 'b' := by
            constructor <;> (rintro rfl; revert hd; decide)
          rw [List.cons_append, List.cons_append, basedSize?_cons, if_neg (by simp [hx']),
            if_neg (by simp [hx'])]
      rw [List.cons_append, numberSize?_cons, if_neg hc, ← List.cons_append, hbased,
        hdecimal _ (by simp) hx.2]
      rfl

end SqlLayout
