import SqlLayout.Proofs.Rules

/-!
# Reading a lexeme again

A text that was read as a lexeme is read as the same lexeme in front of another text, as long as
that text does not run on from it. `Follows` says what this means for each kind of lexeme.
-/

namespace SqlLayout

open Lexeme

/-! ### Operators -/

lemma startsWith_iff {t a : Text} : Text.startsWith t a = true ↔ a <+: t :=
  List.isPrefixOf_iff_prefix

lemma operator_size_of_first {t op : Text} {as bs : List Text}
    (hsplit : longOperators = as ++ op :: bs) (hop : op <+: t) (has : ∀ a ∈ as, ¬a <+: t) :
    (Lexeme.operator t).size = op.length := by
  have hf : longOperators.find? t.startsWith = some op := by
    refine List.find?_eq_some_iff_append.mpr
      ⟨startsWith_iff.mpr hop, as, bs, hsplit, fun a ha => ?_⟩
    simpa [← startsWith_iff] using has a ha
  rw [Lexeme.operator, hf]
  rfl

lemma operator_size_of_none {t : Text} (h : ∀ a ∈ longOperators, ¬a <+: t) :
    (Lexeme.operator t).size = 1 := by
  have hf : longOperators.find? t.startsWith = none :=
    List.find?_eq_none.mpr fun a ha hpre => h a ha (startsWith_iff.mp hpre)
  rw [Lexeme.operator, hf]
  rfl

lemma operator_cases (t : Text) :
    (∃ op as bs, longOperators = as ++ op :: bs ∧ op <+: t ∧ ∀ a ∈ as, ¬a <+: t) ∨
      ∀ a ∈ longOperators, ¬a <+: t := by
  cases hf : longOperators.find? t.startsWith with
  | some op =>
    obtain ⟨hop, as, bs, hsplit, has⟩ := List.find?_eq_some_iff_append.mp hf
    refine .inl ⟨op, as, bs, hsplit, startsWith_iff.mp hop, fun a ha hpre => ?_⟩
    simpa [startsWith_iff.mpr hpre] using has a ha
  | none => exact .inr fun a ha hpre =>
      List.find?_eq_none.mp hf a ha (startsWith_iff.mpr hpre)

lemma operator_text {x s : Text} (h : (Lexeme.operator (x ++ s)).size = x.length) :
    x ∈ longOperators ∨ x.length = 1 := by
  rcases operator_cases (x ++ s) with ⟨op, as, bs, hsplit, hpre, has⟩ | hnone
  · rw [operator_size_of_first hsplit hpre has] at h
    exact .inl (by simp [hsplit, eq_of_prefix_of_length hpre h])
  · rw [operator_size_of_none hnone] at h
    exact .inr h.symm

lemma operator_append {x s k : Text} (h : (Lexeme.operator (x ++ s)).size = x.length)
    (hk : ∀ op ∈ longOperators, op <+: x ++ k → op <+: x) :
    (Lexeme.operator (x ++ k)).size = x.length := by
  have hsame : ∀ op ∈ longOperators, ¬op <+: x ++ s → ¬op <+: x ++ k :=
    fun op hop hnot hpre => hnot ((hk op hop hpre).trans (List.prefix_append x s))
  rcases operator_cases (x ++ s) with ⟨op, as, bs, hsplit, hpre, has⟩ | hnone
  · rw [operator_size_of_first hsplit hpre has] at h
    obtain rfl := eq_of_prefix_of_length hpre h
    exact operator_size_of_first hsplit (List.prefix_append op k)
      fun a ha => hsame a (by simp [hsplit, ha]) (has a ha)
  · rw [operator_size_of_none hnone] at h
    rw [operator_size_of_none fun a ha => hsame a ha (hnone a ha), h]

/-! ### What may follow -/

/-- The characters that the layout puts directly behind a text, apart from blanks. -/
def seamSigns : List Char :=
  [',', '.', ':', ';', '(', ')', 'c', 'C', 'e', 'E']

/-- Whether a text is empty or begins with a blank or a seam sign. -/
def Text.isSeam : Text → Bool
  | [] => true
  | c :: _ => Text.isBlank c || seamSigns.contains c

/-- Whether a text reads on if a word character follows. -/
def Text.runsOn (x : Text) : Bool :=
  x.endsWord && x.head? != some '?' || x == [':'] || x == ['@']

/-- Whether a text may stand in front of anything that does not run on from it. -/
def Text.isLoose (x : Text) : Bool :=
  x == ['.'] || x == [','] || x == ['('] || x.upper == ['C', 'A', 'S', 'E']

/-- A text does not run on from the one before. -/
structure Follows (x k : Text) : Prop where
  seam : x.isLoose = true ∨ k.isSeam = true
  word : x.runsOn = true → k.startsWord = false
  colon : x = [':'] → k.head? ≠ some ':'
  fraction : x.isWhole = true → fractionSize? k = none

lemma Text.endsWord_concat (y : Text) (c : Char) : Text.endsWord (y ++ [c]) = isWordChar c := by
  rw [Text.endsWord_append (by simp)]
  rfl

namespace Rule

variable {ctx : Context} {x s k : Text} {kind : Kind}

lemma endsWord_of_operator (hw : x.startsWord = false)
    (hs : (Lexeme.operator (x ++ s)).size = x.length) : x.endsWord = false := by
  have hlong : ∀ op ∈ longOperators, Text.endsWord op = false := by decide
  rcases operator_text hs with hmem | hone
  · exact hlong x hmem
  · obtain ⟨c, rfl⟩ := List.length_eq_one_iff.mp hone
    exact hw

lemma not_startsWord (h : Rule ctx x s kind) (hr : x.runsOn = true) : s.startsWord = false := by
  cases h with
  | opening hx | closing hx =>
    subst hx
    exact absurd hr (by decide)
  | index ds hx =>
    subst hx
    simp [Text.runsOn] at hr
  | quotedName c q y hc hq hx =>
    have hend : x.endsWord = false := by
      rw [hx, show c :: q :: (y ++ [q]) = (c :: q :: y) ++ [q] from rfl, Text.endsWord_concat, hq]
    simp only [Text.runsOn, hend] at hr
    simp [hx] at hr
  | bareName c y hc hx hy hword hs => exact hs
  | number hn =>
    obtain ⟨ds, r, ht, hlen, -, -, hr⟩ := numberSize?_spec hn
    obtain ⟨-, rfl⟩ := List.append_inj ht hlen.symm
    exact hr
  | keyword role ws hdot hw hnum hmem hn =>
    exact (phraseSize?_shape (Dialect.standard_spelt hmem) hn).2.2
  | word hx hword hs => exact hs
  | operator hx hw hhead hnamed hs =>
    have hend := endsWord_of_operator hw hs
    simp only [Text.runsOn, hend, Bool.false_and, Bool.false_or, Bool.or_eq_true,
      beq_iff_eq] at hr
    exact hnamed hr.symm

lemma fractionSize?_eq_none (h : Rule ctx x s kind) (hx : x.isWhole = true) :
    fractionSize? s = none := by
  cases hf : fractionSize? s with
  | none => rfl
  | some m =>
    exfalso
    have hn := numberSize?_fraction hx hf
    cases h with
    | number hn' =>
      rw [hn, Option.some.injEq] at hn'
      omega
    | word _ _ _ hn' | keyword _ _ _ _ hn' => simp [hn] at hn'
    | opening hx' | closing hx' =>
      subst hx'
      exact absurd hx (by decide)
    | index ds hx' =>
      subst hx'
      simp [Text.isWhole, Text.unsigned] at hx
    | quotedName c q y hc _ hx' | bareName c y hc hx' =>
      subst hx'
      rcases hc with rfl | rfl <;> simp [Text.isWhole, Text.unsigned] at hx
    | operator _ hw _ _ hs =>
      have hlong : ∀ op ∈ longOperators, Text.isWhole op = false := by decide
      rcases operator_text hs with hmem | hone
      · simp [hlong x hmem] at hx
      · obtain ⟨c, rfl⟩ := List.length_eq_one_iff.mp hone
        by_cases hc : c = '-'
        · subst hc
          exact absurd hx (by decide)
        · rw [Text.isWhole, Text.unsigned_cons hc] at hx
          have hd : c.isDigit = true := by simpa using hx
          simp [isWordChar_of_isDigit hd] at hw

end Rule

lemma plain_colons (ctx : Context) (r : Text) :
    (plain Dialect.standard.lexicon ctx (':' :: ':' :: r)).size = 2 := by
  have hq : quotedName? (':' :: r) = none := by simp [quotedName?]
  have hword : Text.isWordChar ':' = false := by decide
  have hn : bareName? (':' :: r) = none := by simp [bareName?, hword]
  rw [plain_named _ _ (.inr rfl), hq, hn]
  rfl

/-! ### Reading again -/

lemma isWordChar_of_isDigitSign {c : Char} (h : Text.isDigit c = true) :
    Text.isWordChar c = true := by
  simp [Text.isWordChar, Text.isNumeral, h]

lemma Text.isSeam_head {k : Text} (h : k.isSeam = true) {c : Char} (hc : c ∈ k.head?) :
    Text.isBlank c = true ∨ c ∈ seamSigns := by
  cases k with
  | nil => simp at hc
  | cons d k =>
    obtain rfl : d = c := by simpa using hc
    simpa [Text.isSeam] using h

lemma Text.isSeam_not {k : Text} {p : Char → Bool} (h : k.isSeam = true)
    (hb : ∀ c, p c = true → Text.isBlank c = false) (hs : ∀ c ∈ seamSigns, p c = false) :
    ∀ c ∈ k.head?, p c = false := by
  intro c hc
  rcases Text.isSeam_head h hc with hblank | hsign
  · cases hp : p c with
    | false => rfl
    | true => simp [hb c hp] at hblank
  · exact hs c hsign

section

variable {x s k : Text} (hseam : x.isLoose = true ∨ k.isSeam = true)
include hseam

lemma Text.loose_or_seam :
    x = ['.'] ∨ x = [','] ∨ x = ['('] ∨ (2 ≤ x.length ∧ x.startsWord = true) ∨
      k.isSeam = true := by
  rcases hseam with hl | hk
  · simp only [Text.isLoose, Bool.or_eq_true, beq_iff_eq] at hl
    rcases hl with ((hl | hl) | hl) | hl
    · exact .inl hl
    · exact .inr (.inl hl)
    · exact .inr (.inr (.inl hl))
    · obtain ⟨c, y, rfl, hc, hy⟩ := Text.head_of_upper (.inl rfl) hl
      have hword : Text.isWordChar c = true := by rcases hc with rfl | rfl <;> decide
      have hne : y ≠ [] := by
        rintro rfl
        simp [Text.upper] at hy
      have := List.length_pos_iff.mpr hne
      exact .inr (.inr (.inr (.inl ⟨by simp only [List.length_cons]; omega, hword⟩)))
  · exact .inr (.inr (.inr (.inr hk)))

lemma startsPlain_of_seam (hp : startsPlain (x ++ s) = true) (hx : x ≠ []) :
    startsPlain (x ++ k) = true := by
  refine startsPlain_append hp hx ?_
  rcases Text.loose_or_seam hseam with rfl | rfl | rfl | ⟨hlen, -⟩ | hk
  · simp
  · simp
  · simp
  · exact .inl hlen
  · right
    right
    intro c hc hmem
    have hsigns : ∀ c ∈ ['-', '*', '\x27'], Text.isBlank c = false ∧ c ∉ seamSigns :=
      List.all_iff_forall_prop.mp (by decide)
    rcases Text.isSeam_head hk hc with hb | hb
    · simp [(hsigns c hmem).1] at hb
    · exact (hsigns c hmem).2 hb

end

namespace Follows

variable {x k : Text}

lemma prefix_of_operator (hf : Follows x k) (hx : x ≠ []) (hw : x.startsWord = false) :
    ∀ op ∈ longOperators, op <+: x ++ k → op <+: x := by
  intro op hop hpre
  by_cases hlen : op.length ≤ x.length
  · exact List.prefix_of_prefix_length_le hpre (List.prefix_append x k) hlen
  exfalso
  obtain ⟨e, rfl⟩ := List.prefix_of_prefix_length_le (List.prefix_append x k) hpre (by omega)
  have hheads : ∀ op ∈ longOperators, op.head? ∉ [some '.', some ',', some '('] := by decide
  have htails : ∀ op ∈ longOperators, ∀ d ∈ op.tail, Text.isBlank d = false ∧
      (d ∈ seamSigns → op = [':', ':']) := forall_mem_mem_of_all (by decide)
  rcases Text.loose_or_seam hf.seam with rfl | rfl | rfl | ⟨-, hw'⟩ | hk
  · exact hheads _ hop (by simp)
  · exact hheads _ hop (by simp)
  · exact hheads _ hop (by simp)
  · simp [hw] at hw'
  · have he : e <+: k := (List.prefix_append_right_inj x).mp hpre
    obtain ⟨d, e, rfl⟩ : ∃ d e', e = d :: e' := by
      cases e with
      | nil => simp at hlen
      | cons d e => exact ⟨d, e, rfl⟩
    obtain ⟨k, rfl⟩ := he
    obtain ⟨c, y, rfl⟩ := List.exists_cons_of_ne_nil hx
    have hd := htails _ hop d (by simp)
    rcases Text.isSeam_head hk (c := d) rfl with hb | hb
    · simp [hd.1] at hb
    · have hcolons := hd.2 hb
      rw [List.cons_append] at hcolons
      obtain ⟨rfl, htail⟩ := List.cons.inj hcolons
      cases y with
      | nil =>
        obtain ⟨rfl, -⟩ := List.cons.inj htail
        exact hf.colon rfl rfl
      | cons b y =>
        have hnil := (List.cons.inj htail).2
        simp at hnil

lemma takeWhile_isDigit (hf : Follows x k) (hx : x.head? = some '?') :
    k.takeWhile Text.isDigit = [] := by
  have hk : k.isSeam = true := by
    rcases Text.loose_or_seam hf.seam with rfl | rfl | rfl | ⟨-, hw⟩ | hk
    · simp at hx
    · simp at hx
    · simp at hx
    · cases x with
      | nil => simp at hx
      | cons c y =>
        obtain rfl : c = '?' := by simpa using hx
        exact absurd hw (by rw [Text.startsWord_cons]; decide)
    · exact hk
  have hnot := Text.isSeam_not (p := Text.isDigit) hk
    (fun c hc => Text.not_isBlank_of_isWordChar (isWordChar_of_isDigitSign hc))
    (List.all_iff_forall_prop.mp (by decide))
  cases k with
  | nil => rfl
  | cons c k => simp [hnot c rfl]

end Follows

namespace Rule

variable {ctx ctx' : Context} {x s k : Text} {kind : Kind}

lemma numberSize?_of_follows (h : Rule ctx x s kind) (hf : Follows x k) (hx : x ≠ [])
    (hword : x.endsWord = true) (hhead : x.head? ≠ some '?') :
    numberSize? (x ++ k) = numberSize? (x ++ s) := by
  have hrun : x.runsOn = true := by simp [Text.runsOn, hword, hhead]
  rw [numberSize?_append (h.not_startsWord hrun) hx h.fractionSize?_eq_none,
    numberSize?_append (hf.word hrun) hx hf.fraction]

lemma quotedName?_eq_none {y : Text} (hq : ∀ c ∈ y.head?, c ∉ ['\x27', '\x22', '\x60']) :
    quotedName? y = none := by
  cases y with
  | nil => rfl
  | cons c y =>
    have hc := hq c rfl
    rw [quotedName?, if_neg (by simpa using hc)]

lemma bareName?_eq_none {y : Text} (hw : y.startsWord = false) : bareName? y = none := by
  have hnil : y.takeWhile Text.isWordChar = [] := by
    simpa using Text.takeWhile_word_append (x := []) (fun _ h => h) hw
  simp [bareName?, hnil]

lemma second_of_operator {c d : Char} {r : Text}
    (hs : (Lexeme.operator (c :: d :: r ++ s)).size = (c :: d :: r).length) :
    d ∉ ['\x27', '\x22', '\x60'] ∧ Text.isWordChar d = false := by
  have hlong : ∀ op ∈ longOperators, ∀ d ∈ op.tail,
      d ∉ ['\x27', '\x22', '\x60'] ∧ Text.isWordChar d = false := forall_mem_mem_of_all (by decide)
  rcases operator_text hs with hmem | hone
  · exact hlong _ hmem d (by simp)
  · simp at hone

lemma seam_of_sign {c : Char} (hf : Follows [c] k) (hc : c ∈ ['@', ':', '-']) : k.isSeam = true := by
  rcases Text.loose_or_seam hf.seam with h | h | h | ⟨h, -⟩ | h
  · simp [(List.cons.inj h).1] at hc
  · simp [(List.cons.inj h).1] at hc
  · simp [(List.cons.inj h).1] at hc
  · simp at h
  · exact h

lemma name_eq_none_of_operator {c : Char} {r : Text} (hc : c = '@' ∨ c = ':') (hf : Follows (c :: r) k)
    (hs : (Lexeme.operator (c :: r ++ s)).size = (c :: r).length) :
    quotedName? (r ++ k) = none ∧ bareName? (r ++ k) = none := by
  cases r with
  | nil =>
    have hk := seam_of_sign hf (by rcases hc with rfl | rfl <;> simp)
    refine ⟨quotedName?_eq_none fun d hd hmem => ?_, bareName?_eq_none (hf.word ?_)⟩
    · have hquotes : ∀ d ∈ ['\x27', '\x22', '\x60'], Text.isBlank d = false ∧ d ∉ seamSigns :=
        List.all_iff_forall_prop.mp (by decide)
      rcases Text.isSeam_head hk hd with hblank | hsign
      · simp [(hquotes d hmem).1] at hblank
      · exact (hquotes d hmem).2 hsign
    · rcases hc with rfl | rfl <;> decide
  | cons d r =>
    obtain ⟨hquote, hword⟩ := second_of_operator hs
    exact ⟨quotedName?_eq_none (by simpa using hquote), bareName?_eq_none hword⟩

lemma startsDigit_of_operator {r : Text} (hf : Follows ('-' :: r) k)
    (hs : (Lexeme.operator ('-' :: r ++ s)).size = ('-' :: r).length) : startsDigit (r ++ k) = false := by
  cases r with
  | nil =>
    have hnot := Text.isSeam_not (p := Char.isDigit) (seam_of_sign hf (by simp))
      (fun c hc => Text.not_isBlank_of_isWordChar (isWordChar_of_isDigit hc))
      (List.all_iff_forall_prop.mp (by decide))
    cases k with
    | nil => rfl
    | cons d k => exact hnot d rfl
  | cons d r =>
    cases hd : d.isDigit with
    | false => exact hd
    | true =>
      have hword := (second_of_operator hs).2
      simp [isWordChar_of_isDigit hd] at hword

lemma number?_minus_eq_none {r : Text} (h : startsDigit r = false) : number? ctx' ('-' :: r) = none := by
  rw [number?]
  split
  · rfl
  rw [Option.map_eq_none_iff, Option.eq_none_iff_forall_ne_some]
  intro n hn
  obtain ⟨ds, t, ht, -, hds | ⟨es, rfl, hes⟩, -, -⟩ := numberSize?_spec hn
  · cases ds with
    | nil => simp [startsDigit] at hds
    | cons d ds =>
      obtain ⟨rfl, -⟩ := List.cons.inj ht
      simp [startsDigit] at hds
  · have hne : es ≠ [] := by
      rintro rfl
      simp [startsDigit] at hes
    rw [List.cons_append, List.cons.injEq] at ht
    rw [ht.2, startsDigit_append hne, hes] at h
    simp at h

lemma plain_of_operator (hf : Follows x k) (hne : x ≠ []) (hw : x.startsWord = false)
    (hb : x.startsBlank = false) (hhead : ∀ c ∈ x.head?, c ∉ ['(', ')', '?'])
    (hs : (Lexeme.operator (x ++ s)).size = x.length) :
    plain Dialect.standard.lexicon ctx' (x ++ k) = Lexeme.operator (x ++ k) := by
  obtain ⟨c, r, rfl⟩ := List.exists_cons_of_ne_nil hne
  rw [List.cons_append]
  by_cases h4 : c = '@' ∨ c = ':'
  · obtain ⟨hquoted, hbare⟩ := name_eq_none_of_operator h4 hf hs
    rw [plain_named _ _ h4, hquoted, hbare]
    rfl
  by_cases h5 : c = '-'
  · subst h5
    rw [plain_minus, number?_minus_eq_none (startsDigit_of_operator hf hs)]
    rfl
  rw [not_or] at h4
  have hhead' := hhead c rfl
  simp only [List.mem_cons, List.not_mem_nil, or_false, not_or] at hhead'
  exact plain_sign _ _ (by simp [headSigns, hhead', h4, h5]) hw hb

lemma plain_of_number (hn : numberSize? (x ++ k) = some x.length)
    (ho : ctx'.afterOperand = true → x.head? ≠ some '-') :
    plain Dialect.standard.lexicon ctx' (x ++ k) = { kind := .number, size := x.length } := by
  obtain ⟨ds, r, ht, hlen, hds, -, -⟩ := numberSize?_spec hn
  obtain ⟨rfl, rfl⟩ := List.append_inj ht hlen.symm
  have hne : x ≠ [] := by
    rintro rfl
    simp [startsDigit] at hds
  obtain ⟨c, y, rfl⟩ := List.exists_cons_of_ne_nil hne
  have hnumber : number? ctx' (c :: (y ++ k)) =
      some { kind := .number, size := (c :: y).length } := by
    rw [number?, if_neg, ← List.cons_append, hn]
    · rfl
    · intro hsign
      simp only [List.head?_cons, Bool.and_eq_true, beq_iff_eq] at hsign
      exact ho hsign.1 (by simpa using hsign.2)
  rw [List.cons_append]
  rcases hds with hds | ⟨es, hes, -⟩
  · rw [plain_word _ _ (isWordChar_of_isDigit hds), hnumber]
    rfl
  · obtain ⟨rfl, -⟩ := List.cons.inj hes
    rw [plain_minus, hnumber]
    rfl

lemma wordKind_ne_number (afterDot : Bool) (x : Text) : wordKind afterDot x ≠ .number := by
  rcases wordKind_cases afterDot x with h | ⟨-, h, -⟩ | ⟨-, h, -⟩ <;> simp [h]

/-- Anything but a keyword or a word is read again as what it was; a signed number needs a place
where a minus sign does not subtract. -/
lemma reread_sign (h : Rule ctx x s kind) (hx : x.startsWord = false ∨ kind = .number)
    (hne : x ≠ []) (hp : startsPlain (x ++ s) = true) (hf : Follows x k)
    (ho : ctx'.afterOperand = true → kind = .number → x.head? ≠ some '-') :
    ∃ l, lexeme Dialect.standard.lexicon ctx' (x ++ k) = .ok l ∧ l.size = x.length ∧
      l.kind = kind := by
  rw [lexeme_of_startsPlain (startsPlain_of_seam hf.seam hp hne)]
  refine ⟨_, rfl, ?_⟩
  have hrule := h
  cases h with
  | opening hx' | closing hx' =>
    subst hx'
    exact ⟨rfl, rfl⟩
  | index ds hx' hds =>
    subst hx'
    have hds' : (ds ++ k).takeWhile Text.isDigit = ds := by
      rw [List.takeWhile_append_of_pos, hf.takeWhile_isDigit rfl, List.append_nil]
      intro c hc
      rw [← hds] at hc
      exact List.all_eq_true.mp List.all_takeWhile c hc
    rw [List.cons_append, plain_index, hds']
    exact ⟨rfl, rfl⟩
  | quotedName c q y hc hq hx' hk =>
    subst hx'
    rw [List.cons_append, List.cons_append, plain_named _ _ hc, hk k]
    exact ⟨by simp, rfl⟩
  | bareName c y hc hx' hy hword hs =>
    subst hx'
    have hrun : Text.runsOn (c :: y) = true := by
      have hend : Text.endsWord (c :: y) = true := by
        rw [← List.singleton_append, Text.endsWord_append hy]
        exact Text.endsWord_of_forall hy hword
      rcases hc with rfl | rfl <;> simp [Text.runsOn, hend]
    have hq : quotedName? (y ++ k) = none := by
      obtain ⟨d, y, rfl⟩ := List.exists_cons_of_ne_nil hy
      have hd := hword d (by simp)
      refine quotedName?_eq_none fun e he hmem => ?_
      obtain rfl : d = e := by simpa using he
      have hquotes : ∀ d ∈ ['\x27', '\x22', '\x60'], Text.isWordChar d = false :=
        List.all_iff_forall_prop.mp (by decide)
      simp [hquotes d hmem] at hd
    rw [List.cons_append, plain_named _ _ hc, hq, bareName?, Text.takeWhile_of_word hword (hf.word hrun)]
    simp [hy]
  | number hn hsign =>
    obtain ⟨ds, r, ht, hlen, hds, hend, -⟩ := numberSize?_spec hn
    obtain ⟨rfl, rfl⟩ := List.append_inj ht hlen.symm
    have hhead : x.head? ≠ some '?' := by
      intro hq
      obtain ⟨y, rfl⟩ : ∃ y, x = '?' :: y := by
        cases x with
        | nil => simp at hq
        | cons c y => exact ⟨y, by simpa using hq⟩
      simp [startsDigit] at hds
    rw [plain_of_number ((hrule.numberSize?_of_follows hf hne hend hhead).trans hn)
      fun h => ho h rfl]
    exact ⟨rfl, rfl⟩
  | keyword role ws hdot hw => simp [hw] at hx
  | word hx' hword =>
    have hw : x.startsWord = true := by
      obtain ⟨c, y, rfl⟩ := List.exists_cons_of_ne_nil hx'
      exact hword c (by simp)
    simp [hw, wordKind_ne_number] at hx
  | operator hx' hw hhead hnamed hs =>
    have hb : x.startsBlank = false := by
      obtain ⟨c, y, rfl⟩ := List.exists_cons_of_ne_nil hne
      exact (startsPlain_cons.mp hp).1
    rw [plain_of_operator hf hne hw hb hhead hs]
    exact ⟨operator_append hs (hf.prefix_of_operator hne hw), rfl⟩

end Rule

end SqlLayout
