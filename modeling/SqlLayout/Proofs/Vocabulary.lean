import SqlLayout.Dialect.Standard
import SqlLayout.Proofs.Phrases

/-!
# The standard vocabulary

What the word lists of standard SQL have in common, settled by looking through them once.
-/

namespace SqlLayout

/-- Whether a character is one of those that keywords are spelled with. -/
def isCapital (c : Char) : Bool :=
  c.isUpper || c.isDigit || c == '_'

/-- Whether a word sequence is a phrase as the vocabulary spells it: words of capitals, the first
of which has two letters at its start. -/
def isSpelling : List Text → Bool
  | (a :: b :: w) :: ws =>
    a.isUpper && b.isUpper && w.all isCapital && ws.all fun v => !v.isEmpty && v.all isCapital
  | _ => false

lemma isCapital_spec {c : Char} (h : isCapital c = true) :
    c.toNat < 128 ∧ Text.isWordChar c = true := by
  have hc : c.toNat < 128 := by
    simp only [isCapital, Char.isDigit, Bool.or_eq_true, Bool.and_eq_true, decide_eq_true_eq,
      beq_iff_eq] at h
    rcases h with (h | h) | rfl
    · have hupper : 'A'.val ≤ c.val ∧ c.val ≤ 'Z'.val := of_decide_eq_true h
      exact Nat.lt_of_le_of_lt hupper.2 (by decide)
    · exact Nat.lt_of_le_of_lt h.2 (by decide)
    · decide
  exact ⟨hc, Text.ascii_forall (P := fun c => isCapital c = true → Text.isWordChar c = true)
    (by decide +kernel) hc h⟩

lemma isSpelling_cons {ws : List Text} (h : isSpelling ws = true) :
    (∃ a b w vs, ws = (a :: b :: w) :: vs ∧ a.isUpper = true ∧ b.isUpper = true) ∧
      ∀ w ∈ ws, Spelt w := by
  rw [isSpelling.eq_def] at h
  split at h
  · next a b w vs =>
    simp only [Bool.and_eq_true] at h
    obtain ⟨⟨⟨ha, hb⟩, hw⟩, hvs⟩ := h
    refine ⟨⟨a, b, w, vs, rfl, ha, hb⟩, ?_⟩
    intro u hu
    rcases List.mem_cons.mp hu with rfl | hu
    · refine ⟨by simp, fun c hc => isCapital_spec ?_⟩
      rcases List.mem_cons.mp hc with rfl | hc
      · simp [isCapital, ha]
      · rcases List.mem_cons.mp hc with rfl | hc
        · simp [isCapital, hb]
        · exact List.all_eq_true.mp hw c hc
    · have hu := List.all_eq_true.mp hvs u hu
      rw [Bool.and_eq_true] at hu
      exact ⟨by simpa using hu.1, fun c hc => isCapital_spec (List.all_eq_true.mp hu.2 c hc)⟩
  · simp at h

/-- The roles of keywords in the order in which their phrases are tried. -/
def Role.inOrder : List Role :=
  [.clause, .indented, .breaking, .plain]

lemma Role.mem_inOrder (role : Role) : role ∈ inOrder := by
  cases role <;> decide

/-- A number for each word of a phrase. Looking through the word lists, numbers are compared at
once, where words are compared letter by letter. -/
def phraseCode (ws : List Text) : List Nat :=
  ws.map fun w => w.foldl (fun n c => 128 * n + c.toNat) 0

namespace Dialect

/-- The word lists of a dialect are in good order: phrases are spelled in capitals with single
spaces, and no phrase is the beginning of one in a list that is tried later. -/
structure Orderly (d : Dialect) : Prop where
  spelling : ∀ role, ∀ p ∈ d.phrases role, isSpelling p.words = true
  spaced : ∀ role, ∀ p ∈ d.phrases role, List.intercalate [' '] p.words = p
  apart : Role.inOrder.Pairwise fun r r' =>
    ∀ p ∈ d.phrases r, ∀ q ∈ d.phrases r', ¬p.words <+: q.words

lemma standard_checked :
    (∀ r ∈ Role.inOrder, ∀ p ∈ standard.phrases r,
      isSpelling p.words = true ∧ List.intercalate [' '] p.words = p) ∧
    Role.inOrder.Pairwise fun r r' => ∀ p ∈ standard.phrases r, ∀ q ∈ standard.phrases r',
      ¬phraseCode p.words <+: phraseCode q.words := by
  decide +kernel

lemma standard_orderly : standard.Orderly where
  spelling := fun role p hp => (standard_checked.1 role role.mem_inOrder p hp).1
  spaced := fun role p hp => (standard_checked.1 role role.mem_inOrder p hp).2
  apart := by
    refine standard_checked.2.imp ?_
    intro r r' h p hp q hq hbegins
    exact h p hp q hq (hbegins.map _)

lemma standard_phrases_isSpelling (role : Role) :
    ∀ p ∈ standard.phrases role, isSpelling p.words = true :=
  standard_orderly.spelling role

lemma standard_substantial : standard.Substantial where
  phrases := by
    intro role p hp
    have hs := standard_phrases_isSpelling role p hp
    cases hb : p.isAllBlank with
    | false => simpa [Text.isAllBlank] using hb
    | true =>
      have hnil : p.words = [] := by simpa [Text.words] using Text.words_blank_append (t := []) hb
      simp [hnil, isSpelling] at hs
  quotes := by decide

lemma standard_isSpelling {role : Role} {ws : List Text}
    (h : (role, ws) ∈ standard.lexicon.phrases) : isSpelling ws = true := by
  simp only [lexicon, List.mem_flatMap, orderedPhrases, List.mem_map, Prod.mk.injEq] at h
  obtain ⟨r, -, p, hp, -, rfl⟩ := h
  exact standard_phrases_isSpelling r p (mem_byLength.mp hp)

lemma standard_spelt {role : Role} {ws : List Text}
    (h : (role, ws) ∈ standard.lexicon.phrases) : ∀ w ∈ ws, Spelt w :=
  (isSpelling_cons (standard_isSpelling h)).2

lemma standard_openers : standard.openers = [['('], ['C', 'A', 'S', 'E']] := rfl

lemma standard_closers : standard.closers = [[')'], ['E', 'N', 'D']] := rfl

lemma standard_openWords : standard.lexicon.openWords = [['C', 'A', 'S', 'E']] := by
  decide +kernel

lemma standard_closeWords : standard.lexicon.closeWords = [['E', 'N', 'D']] := by
  decide +kernel

lemma standard_indexMarks : standard.indexMarks = [['?']] := rfl

lemma standard_nameMarks : standard.nameMarks = [['@'], [':']] := rfl

lemma standard_quotes :
    standard.lexicon.quotes = [['N', '\x27'], ['\x22'], ['\x27'], ['\x60'], ['[']] := by
  decide +kernel

end Dialect

end SqlLayout
