import Mathlib.Tactic.Lemma
import Mathlib.Tactic.Tauto
import SqlLayout.Token.Stream

/-!
# The size of a lexeme

Every rule of the lexer finds a piece of text that is not empty and does not reach past the end of
the text. A dialect can break this only with a string that begins with nothing, so
`lexeme_size_bounds` is stated for dialects whose string openers and phrases hold something.
-/

namespace SqlLayout

/-- A vocabulary in which every phrase has a character that is not blank and every string begins
with something. -/
structure Dialect.Substantial (d : Dialect) : Prop where
  phrases : ∀ role, ∀ p ∈ d.phrases role, ∃ c ∈ p, Text.isBlank c = false
  quotes : ∀ q ∈ d.quotes, q ≠ []

lemma length_le_of_startsWith {t start : Text} (h : t.startsWith start = true) :
    start.length ≤ t.length :=
  (List.isPrefixOf_iff_prefix.mp h).length_le

lemma length_takeWhile_le (p : Char → Bool) (t : Text) : (t.takeWhile p).length ≤ t.length :=
  (List.takeWhile_prefix p).length_le

lemma length_blanks_pos {t : Text} (h : t.startsBlank = true) :
    0 < (t.takeWhile Text.isBlank).length := by
  cases t with
  | nil => simp [Text.startsBlank] at h
  | cons c cs => simp [show Text.isBlank c = true from h]

lemma find?_length_le {wanted t : Text} {n : Nat} (h : Text.find? wanted t = some n) :
    n + wanted.length ≤ t.length := by
  induction t generalizing n with
  | nil =>
    rw [Text.find?] at h
    split at h
    · next hw =>
      obtain rfl : 0 = n := by simpa using h
      simpa using hw
    · simp at h
  | cons c cs ih =>
    rw [Text.find?] at h
    split at h
    · next hs =>
      obtain rfl : 0 = n := by simpa using h
      simpa using length_le_of_startsWith hs
    · obtain ⟨m, hm, rfl⟩ := Option.map_eq_some_iff.mp h
      have := ih hm
      simp only [List.length_cons]
      omega

lemma lineLength_pos {t : Text} (h : t ≠ []) : 0 < t.lineLength := by
  fun_cases Text.lineLength t <;> simp_all

lemma lineLength_le (t : Text) : t.lineLength ≤ t.length := by
  fun_induction Text.lineLength t <;> simp_all

lemma quoteSize?_bounds {closer : Char} {t : Text} {n : Nat} (h : quoteSize? closer t = some n) :
    0 < n ∧ n ≤ t.length := by
  fun_induction quoteSize? closer t generalizing n with
  | case1 => simp at h
  | case2 | case6 => simp_all; omega
  | case3 => simp_all
  | case4 _ _ _ _ ih | case5 _ _ ih | case7 _ _ _ _ _ ih =>
    obtain ⟨m, hm, rfl⟩ := Option.map_eq_some_iff.mp h
    have := ih hm
    simp only [List.length_cons] at this ⊢
    omega

lemma digitsSize?_bounds {isDigit : Char → Bool} {t : Text} {n : Nat}
    (h : digitsSize? isDigit t = some n) : 0 < n ∧ n ≤ t.length := by
  rw [digitsSize?] at h
  have := length_takeWhile_le isDigit t
  split at h
  · simp at h
  · obtain rfl := Option.some.inj h
    omega

lemma decimalSize?_bounds {t : Text} {n : Nat} (h : decimalSize? t = some n) :
    0 < n ∧ n ≤ t.length := by
  rw [decimalSize?] at h
  split at h
  · next m hm =>
    obtain rfl := Option.some.inj h
    split at hm
    · next rest hd =>
      split at hm
      · simp at hm
      · have hb := digitsSize?_bounds hm
        have hl := congrArg List.length hd
        simp only [List.length_drop, List.length_cons] at hl
        omega
    · simp at hm
  · exact digitsSize?_bounds h

lemma basedSize?_bounds {t : Text} {n : Nat} (h : basedSize? t = some n) :
    0 < n ∧ n ≤ t.length := by
  rw [basedSize?.eq_def] at h
  split at h
  case h_3 => simp at h
  all_goals
    obtain ⟨m, hm, rfl⟩ := Option.map_eq_some_iff.mp h
    have := digitsSize?_bounds hm
    simp only [List.length_cons]
    omega

lemma numberSize?_bounds {t : Text} {n : Nat} (h : numberSize? t = some n) :
    0 < n ∧ n ≤ t.length := by
  simp only [numberSize?, Option.orElse_eq_orElse, Option.orElse_eq_or, Option.or_eq_some_iff] at h
  rcases h with hb | ⟨-, hd⟩
  · exact basedSize?_bounds hb
  · split at hd
    · obtain ⟨m, hm, rfl⟩ := Option.map_eq_some_iff.mp hd
      have := decimalSize?_bounds hm
      simp only [List.length_cons]
      omega
    · exact decimalSize?_bounds hd

lemma length_le_of_startsWithWord {w t : Text} (h : startsWithWord w t = true) :
    w.length ≤ t.length := by
  fun_induction startsWithWord w t <;> simp_all

lemma wordsSize?_bounds {ws : List Text} {t : Text} {n : Nat} (hw : ∀ w ∈ ws, w ≠ [])
    (h : wordsSize? ws t = some n) : 0 < n ∧ n ≤ t.length := by
  fun_induction wordsSize? ws t generalizing n with
  | case1 | case3 | case4 | case6 => simp at h
  | case2 w t hs =>
    obtain rfl := Option.some.inj h
    exact ⟨List.length_pos_iff.mpr (hw w (by simp)), length_le_of_startsWithWord hs⟩
  | case5 w ws t _ hs rest gap _ =>
    rename_i ih
    obtain ⟨m, hm, rfl⟩ := Option.map_eq_some_iff.mp h
    have hi := ih (fun v hv => hw v (by simp [hv])) hm
    have hl := length_le_of_startsWithWord hs
    have hr : gap ≤ rest.length := length_takeWhile_le _ _
    simp only [List.length_drop, rest] at hi hr
    omega

lemma ne_nil_of_mem_words {t w : Text} (h : w ∈ Text.words t) : w ≠ [] := by
  fun_induction Text.words t with
  | case1 => simp at h
  | case2 _ _ _ ih => exact ih h
  | case3 _ _ _ _ ih =>
    rcases List.mem_cons.mp h with rfl | hm
    · simp
    · exact ih hm
  | case4 => simp_all
  | case5 c cs _ _ v vs hv ih =>
    rcases List.mem_cons.mp h with rfl | hm
    · simp
    · exact ih (by simp [hv, hm])

lemma mem_insertByLength {t u : Text} {ts : List Text} :
    u ∈ insertByLength t ts ↔ u = t ∨ u ∈ ts := by
  induction ts with
  | nil => simp [insertByLength]
  | cons v vs ih =>
    rw [insertByLength]
    split
    · simp
    · simp only [List.mem_cons, ih]
      tauto

lemma mem_byLength {u : Text} {ts : List Text} : u ∈ byLength ts ↔ u ∈ ts := by
  induction ts with
  | nil => simp [byLength]
  | cons t ts ih =>
    rw [byLength, List.foldr_cons, mem_insertByLength, ← byLength, ih, List.mem_cons]

lemma ne_nil_of_mem_lexicon_phrases {d : Dialect} {role : Role} {ws : List Text}
    (h : (role, ws) ∈ d.lexicon.phrases) : ∀ w ∈ ws, w ≠ [] := by
  simp only [Dialect.lexicon, List.mem_flatMap, Dialect.orderedPhrases, List.mem_map,
    Prod.mk.injEq] at h
  obtain ⟨_, -, p, -, -, rfl⟩ := h
  exact fun w hw => ne_nil_of_mem_words hw

namespace Lexeme

/-- A lexeme holds at least one character of a text and lies inside it. -/
def Fits (t : Text) (l : Lexeme) : Prop :=
  0 < l.size ∧ l.size ≤ t.length

lemma fits_bracket {d : Dialect} {t : Text} {l : Lexeme} (h : bracket? d t = some l) :
    l.Fits t := by
  rw [bracket?.eq_def] at h
  split at h
  · simp at h
  · split at h
    · obtain rfl := Option.some.inj h
      simp [Fits]
    · split at h
      · obtain rfl := Option.some.inj h
        simp [Fits]
      · simp at h

lemma fits_quotedName {c : Char} {t : Text} {l : Lexeme} (h : quotedName? t = some l) :
    l.Fits (c :: t) := by
  rw [quotedName?.eq_def] at h
  split at h
  · simp at h
  · split at h
    · obtain ⟨n, hn, rfl⟩ := Option.map_eq_some_iff.mp h
      have := find?_length_le hn
      simp only [Fits, List.length_cons, List.length_nil] at this ⊢
      omega
    · simp at h

lemma fits_bareName {c : Char} {t : Text} {l : Lexeme} (h : bareName? t = some l) :
    l.Fits (c :: t) := by
  rw [bareName?] at h
  split at h
  · simp at h
  · obtain rfl := Option.some.inj h
    have := length_takeWhile_le Text.isWordChar t
    simp only [Fits, List.length_cons]
    omega

lemma fits_placeholder {d : Dialect} {t : Text} {l : Lexeme} (h : placeholder? d t = some l) :
    l.Fits t := by
  rw [placeholder?.eq_def] at h
  split at h
  · simp at h
  · next c rest =>
    split at h
    · obtain rfl := Option.some.inj h
      have := length_takeWhile_le Text.isDigit rest
      simp only [Fits, List.length_cons]
      omega
    · split at h
      · simp only [Option.orElse_eq_orElse, Option.orElse_eq_or, Option.or_eq_some_iff] at h
        rcases h with hq | ⟨-, hb⟩
        · exact fits_quotedName hq
        · exact fits_bareName hb
      · simp at h

lemma fits_number {ctx : Context} {t : Text} {l : Lexeme} (h : number? ctx t = some l) :
    l.Fits t := by
  rw [number?] at h
  split at h
  · simp at h
  · obtain ⟨n, hn, rfl⟩ := Option.map_eq_some_iff.mp h
    exact numberSize?_bounds hn

lemma fits_keyword {d : Dialect} {ctx : Context} {t : Text} {l : Lexeme}
    (h : keyword? d.lexicon ctx t = some l) : l.Fits t := by
  rw [keyword?] at h
  split at h
  · simp at h
  · obtain ⟨⟨role, ws⟩, hmem, hl⟩ := List.exists_of_findSome?_eq_some h
    obtain ⟨n, hn, rfl⟩ := Option.map_eq_some_iff.mp hl
    exact wordsSize?_bounds (ne_nil_of_mem_lexicon_phrases hmem) (Option.filter_eq_some_iff.mp hn).1

lemma fits_word {lx : Lexicon} {ctx : Context} {t : Text} {l : Lexeme}
    (h : word? lx ctx t = some l) : l.Fits t := by
  rw [word?] at h
  split at h
  · simp at h
  · next hw =>
    obtain rfl := Option.some.inj h
    exact ⟨by simpa [List.length_pos_iff] using hw, length_takeWhile_le _ _⟩

lemma fits_operator {t : Text} (h : t ≠ []) : (operator t).Fits t := by
  rw [operator]
  cases hf : longOperators.find? t.startsWith with
  | none => exact ⟨by simp, by simpa [Nat.succ_le_iff, List.length_pos_iff] using h⟩
  | some op =>
    have hpos : ∀ op ∈ longOperators, 0 < op.length := by decide
    exact ⟨hpos op (List.mem_of_find?_eq_some hf),
      length_le_of_startsWith (by simpa using List.find?_some hf)⟩

lemma fits_plain {d : Dialect} {ctx : Context} {t : Text} (h : t ≠ []) :
    (plain d.lexicon ctx t).Fits t := by
  rw [plain]
  cases hp : (bracket? d.lexicon.dialect t <|> placeholder? d.lexicon.dialect t <|>
      number? ctx t <|> keyword? d.lexicon ctx t <|> word? d.lexicon ctx t) with
  | none => exact fits_operator h
  | some l =>
    simp only [Option.orElse_eq_orElse, Option.orElse_eq_or, Option.or_eq_some_iff] at hp
    rcases hp with hb | ⟨-, hp | ⟨-, hn | ⟨-, hk | ⟨-, hw⟩⟩⟩⟩
    · exact fits_bracket hb
    · exact fits_placeholder hp
    · exact fits_number hn
    · exact fits_keyword hk
    · exact fits_word hw

end Lexeme

/-- What stands at the head of a text takes at least one of its characters and no more than it
has; a text is refused only because a comment or a string in it is not closed. -/
lemma lexeme_size_bounds {d : Dialect} (hd : d.Substantial) (ctx : Context) {t : Text}
    (ht : t ≠ []) :
    match lexeme d.lexicon ctx t with
    | .ok l => l.Fits t
    | .error fault => fault ≠ .emptyOpener := by
  rw [lexeme]
  by_cases hb : t.startsBlank = true
  · rw [if_pos hb]
    exact ⟨length_blanks_pos hb, length_takeWhile_le _ _⟩
  rw [if_neg hb]
  by_cases hm : d.lexicon.dialect.commentMarks.any t.startsWith = true
  · rw [if_pos hm]
    exact ⟨lineLength_pos ht, lineLength_le _⟩
  rw [if_neg hm]
  by_cases hc : t.startsWith ['/', '*'] = true
  · rw [if_pos hc, Lexeme.blockComment]
    have h2 := length_le_of_startsWith hc
    cases hf : Text.find? ['*', '/'] (t.drop 2) with
    | none => simp
    | some n =>
      have := find?_length_le hf
      simp only [Lexeme.Fits, List.length_drop, List.length_cons, List.length_nil] at this h2 ⊢
      omega
  rw [if_neg hc]
  cases hq : d.lexicon.quotes.find? t.startsWith with
  | none => exact Lexeme.fits_plain ht
  | some opener =>
    have hne : opener ≠ [] := hd.quotes _ (mem_byLength.mp (List.mem_of_find?_eq_some hq))
    have hs := length_le_of_startsWith (by simpa using List.find?_some hq)
    have ho := List.length_pos_iff.mpr hne
    simp only [Lexeme.string, List.isEmpty_iff, hne, if_false]
    cases hz : quoteSize? (closerOf opener) (t.drop opener.length) with
    | none => simp
    | some n =>
      have := quoteSize?_bounds hz
      simp only [Lexeme.Fits, List.length_drop] at this ⊢
      omega

end SqlLayout
