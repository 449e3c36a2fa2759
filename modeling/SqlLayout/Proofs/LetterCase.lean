import Mathlib.Data.Bool.AllAny
import Mathlib.Tactic.Lemma
import SqlLayout.Lexeme.Phrase

/-!
# Letter case and word characters

Keywords are matched without regard to case, and a few letters outside ASCII match ASCII letters.
All of them are word characters, so a keyword never reaches past the word that it stands in.
-/

namespace SqlLayout

lemma forall_mem_mem_of_all {α β : Type} {f : α → List β} {p : α → β → Prop} [∀ a, DecidablePred (p a)]
    {l : List α} (h : (l.all fun a => (f a).all fun b => decide (p a b)) = true) :
    ∀ a ∈ l, ∀ b ∈ f a, p a b := by
  simpa using h

namespace Text

lemma shiftBy_cases (runs : List CaseRun) (n : Nat) :
    shiftBy runs n = n ∨
      ∃ r ∈ runs, r.covers n = true ∧ shiftBy runs n = ((n : Int) + r.shift).toNat := by
  rw [shiftBy]
  split
  · next r hr =>
    exact .inr ⟨r, List.mem_of_find?_eq_some hr, by simpa using List.find?_some hr, rfl⟩
  · exact .inl rfl

lemma toNat_eq_of_ofNat {n : Nat} {a : Char} (h : Char.ofNat n = a) (ha : a ≠ '\x00') :
    a.toNat = n := by
  by_cases hn : n.isValidChar
  · rw [Char.ofNat, dif_pos hn] at h
    rw [← h]
    rfl
  · rw [Char.ofNat, dif_neg hn] at h
    exact absurd h.symm ha

lemma ascii_forall {P : Char → Prop} (h : ∀ n, n < 128 → P (Char.ofNat n)) {c : Char}
    (hc : c.toNat < 128) : P c := by
  have hn := h c.toNat hc
  rwa [Char.ofNat_toNat] at hn

lemma isWordChar_toLower {c : Char} (hc : c.toNat < 128) :
    isWordChar c.toLower = isWordChar c :=
  ascii_forall (P := fun c => isWordChar c.toLower = isWordChar c) (by decide) hc

lemma toNat_toLower_lt {c : Char} (hc : c.toNat < 128) : c.toLower.toNat < 128 :=
  ascii_forall (P := fun c => c.toLower.toNat < 128) (by decide) hc

/-- The letters outside ASCII that match a letter of ASCII: the capital I with a dot above, the small
i without one, the long s and the Kelvin sign. -/
def asciiAlternates : List Char :=
  ['İ', 'ı', 'ſ', '\u212a']

lemma code_of_lower {c a : Char} (hc : 128 ≤ c.toNat) (h : lower c = a) (hz : a ≠ '\x00')
    (ha : a.toNat < 128 ∨ a.toNat = 0x131 ∨ a.toNat = 0x17f) :
    c.toNat ∈ [0x130, 0x131, 0x17f, 0x212a] := by
  have hruns : ∀ r ∈ lowerRuns,
      ((r.first : Int) + r.shift < 128 → r.first = r.last ∧ (r.first = 0x130 ∨ r.first = 0x212a)) ∧
      r.covers (0x131 - r.shift).toNat = false ∧ r.covers (0x17f - r.shift).toNat = false := by
    decide +kernel
  rw [lower, if_neg (by omega)] at h
  have hn := toNat_eq_of_ofNat h hz
  simp only [List.mem_cons, List.not_mem_nil, or_false]
  rcases shiftBy_cases lowerRuns c.toNat with hs | ⟨r, hr, hcov, hs⟩
  · rw [hs] at hn
    omega
  · obtain ⟨hlow, hi, hlong⟩ := hruns r hr
    have hb : r.first ≤ c.toNat ∧ c.toNat ≤ r.last := by
      simp only [CaseRun.covers, Bool.and_eq_true, decide_eq_true_eq] at hcov
      exact hcov.1
    rw [hs] at hn
    rcases ha with ha | ha | ha
    · have hone := hlow (by omega)
      omega
    · rw [show (0x131 - r.shift).toNat = c.toNat by omega, hcov] at hi
      simp at hi
    · rw [show (0x17f - r.shift).toNat = c.toNat by omega, hcov] at hlong
      simp at hlong

/-- A letter outside ASCII that matches a letter of ASCII is one of four. -/
lemma mem_asciiAlternates {a c : Char} (ha : a.toNat < 128) (hz : a.toLower ≠ '\x00') (hc : 128 ≤ c.toNat)
    (h : sameLetter a c = true) : c ∈ asciiAlternates := by
  have hforms : ∀ q ∈ alternateForms, q.2 < 128 → q.1 = 0x131 ∨ q.1 = 0x17f := by decide
  have hcode : c.toNat ∈ [0x130, 0x131, 0x17f, 0x212a] := by
    rw [sameLetter, beq_iff_eq, fold, if_pos ha, fold, if_neg (by omega)] at h
    have hlow := toNat_toLower_lt ha
    simp only at h
    split at h
    · next k hk =>
      obtain ⟨before, after, hsplit, -⟩ := List.lookup_eq_some_iff.mp hk
      have hmem : ((lower c).toNat, k) ∈ alternateForms := by simp [hsplit]
      have hk128 : k < 128 := by
        have := toNat_eq_of_ofNat h.symm hz
        omega
      have hform := hforms _ hmem hk128
      refine code_of_lower hc rfl ?_ (.inr hform)
      intro h0
      rw [h0] at hform
      simp at hform
    · exact code_of_lower hc h.symm hz (.inl hlow)
  have hletters : ∀ n ∈ [0x130, 0x131, 0x17f, 0x212a], Char.ofNat n ∈ asciiAlternates := by decide
  have hc := hletters c.toNat hcode
  rwa [Char.ofNat_toNat] at hc

lemma toNat_lt_of_upperLetter {c u : Char} {r : Text} (h : upperLetter c = u :: r)
    (hu : u = 'C' ∨ u = 'E') : c.toNat < 128 := by
  have hexp : ∀ q ∈ upperExpansions, q.2.head? ≠ some 0x43 ∧ q.2.head? ≠ some 0x45 := by decide
  have hruns : ∀ r ∈ upperRuns,
      r.covers (0x43 - r.shift).toNat = false ∧ r.covers (0x45 - r.shift).toNat = false := by
    decide +kernel
  have hz : u ≠ '\x00' := by rcases hu with rfl | rfl <;> decide
  have hn : u.toNat = 0x43 ∨ u.toNat = 0x45 := by rcases hu with rfl | rfl <;> decide
  rcases Nat.lt_or_ge c.toNat 128 with hc | hc
  · exact hc
  exfalso
  rw [upperLetter, if_neg (by omega)] at h
  split at h
  · next ns hns =>
    obtain ⟨before, after, hsplit, -⟩ := List.lookup_eq_some_iff.mp hns
    have hq := hexp (c.toNat, ns) (by simp [hsplit])
    obtain ⟨n, ns', rfl, hn', -⟩ := List.map_eq_cons_iff.mp h
    have := toNat_eq_of_ofNat hn' hz
    simp only [List.head?_cons, ne_eq, Option.some.injEq] at hq
    omega
  · have hs := toNat_eq_of_ofNat (List.cons.inj h).1 hz
    rcases shiftBy_cases upperRuns c.toNat with hsh | ⟨r, hr, hcov, hsh⟩
    · omega
    · obtain ⟨hC, hE⟩ := hruns r hr
      rcases hn with hn | hn
      · rw [show (0x43 - r.shift).toNat = c.toNat by omega, hcov] at hC
        simp at hC
      · rw [show (0x45 - r.shift).toNat = c.toNat by omega, hcov] at hE
        simp at hE

lemma upperLetter_ne_nil (c : Char) : upperLetter c ≠ [] := by
  have hexp : ∀ q ∈ upperExpansions, q.2 ≠ [] := by decide
  rw [upperLetter]
  split
  · simp
  · split
    · next ns hns =>
      obtain ⟨before, after, hsplit, -⟩ := List.lookup_eq_some_iff.mp hns
      have hne := hexp (c.toNat, ns) (by simp [hsplit])
      simpa using hne
    · simp

lemma head_of_upper {x r : Text} {u : Char} (hu : u = 'C' ∨ u = 'E') (h : upper x = u :: r) :
    ∃ c y, x = c :: y ∧ (c = u ∨ c = u.toLower) ∧ upper y = r := by
  cases x with
  | nil => simp [upper] at h
  | cons c y =>
    have hcons : upper (c :: y) = upperLetter c ++ upper y := by simp [upper]
    obtain ⟨v, vs, hl⟩ := List.exists_cons_of_ne_nil (upperLetter_ne_nil c)
    rw [hcons, hl] at h
    obtain rfl := (List.cons.inj h).1
    have hc := toNat_lt_of_upperLetter hl hu
    have hv : c.toUpper = v ∧ vs = [] := by
      rw [upperLetter, if_pos hc] at hl
      exact ⟨(List.cons.inj hl).1, (List.cons.inj hl).2.symm⟩
    refine ⟨c, y, rfl, ?_, ?_⟩
    · rcases hu with rfl | rfl
      · exact ascii_forall (P := fun c => c.toUpper = 'C' → c = 'C' ∨ c = 'C'.toLower) (by decide) hc hv.1
      · exact ascii_forall (P := fun c => c.toUpper = 'E' → c = 'E' ∨ c = 'E'.toLower) (by decide) hc hv.1
    · rw [hv.2] at h
      exact (List.cons.inj h).2

end Text

lemma isWordChar_of_sameLetter {w c : Char} (hw : w.toNat < 128) (hword : Text.isWordChar w = true)
    (h : sameLetter w c = true) : Text.isWordChar c = true := by
  have hwl : Text.isWordChar w.toLower = true := (Text.isWordChar_toLower hw).trans hword
  have hz : w.toLower ≠ '\x00' := by
    intro h0
    rw [h0] at hwl
    revert hwl
    decide
  rcases Nat.lt_or_ge c.toNat 128 with hc | hc
  · rw [sameLetter, beq_iff_eq, Text.fold, if_pos hw, Text.fold, if_pos hc] at h
    rw [← Text.isWordChar_toLower hc, ← h, hwl]
  · have hall : ∀ c ∈ Text.asciiAlternates, Text.isWordChar c = true :=
      List.all_iff_forall_prop.mp (by decide +kernel)
    exact hall c (Text.mem_asciiAlternates hw hz hc h)

end SqlLayout
