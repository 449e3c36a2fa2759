import SqlLayout.Proofs.LongestPhrase
import SqlLayout.Proofs.Statements

/-!
# Keywords in capitals

The layout knows joins and the clause that limits rows by the capital form of a keyword, where the lexer
has matched letters without regard to case. Four letters outside ASCII match a letter of ASCII. Two of
them, the dotless i and the long s, have it as their capital. The other two are capitals themselves. The
Kelvin sign stands for a K, which no phrase that begins a line contains; but a join or a limit with a dotted
I is not known as such.
-/

namespace SqlLayout

open Text Lexeme

/-- The capital I with a dot above. -/
def dottedI : Char := 'İ'

lemma upperLetter_of_sameLetter {a c : Char} (ha : isCapital a = true) (hk : a ≠ 'K') (hc : c ≠ dottedI)
    (h : sameLetter a c = true) : upperLetter c = [a] := by
  obtain ⟨hascii, hword⟩ := isCapital_spec ha
  have hback := toUpper_toLower_of_isCapital ha
  have hfold : a.toLower = fold c := by
    rw [sameLetter, beq_iff_eq, fold, if_pos hascii] at h
    exact h
  rcases Nat.lt_or_ge c.toNat 128 with hlow | hlow
  · rw [fold, if_pos hlow] at hfold
    have hup : c.toLower.toUpper = c.toUpper :=
      ascii_forall (P := fun c => c.toLower.toUpper = c.toUpper) (by decide +kernel) hlow
    rw [upperLetter, if_pos hlow, ← hup, ← hfold, hback]
  · have hz : a.toLower ≠ '\x00' := by
      intro h0
      rw [h0] at hback
      rw [← hback] at hword
      revert hword
      decide
    have hupper : ∀ c ∈ asciiAlternates, c ≠ dottedI → fold c ≠ 'k' → upperLetter c = [(fold c).toUpper] :=
      List.all_iff_forall_prop.mp (by decide)
    have hk' : fold c ≠ 'k' := by
      intro h0
      rw [hfold, h0] at hback
      exact hk hback.symm
    rw [hupper c (mem_asciiAlternates hascii hz hlow h) hc hk', ← hfold, hback]

lemma InAnyCase.upper {w v : Text} (h : InAnyCase w v) (hw : ∀ a ∈ w, isCapital a = true) (hk : 'K' ∉ w)
    (hv : dottedI ∉ v) : Text.upper v = w := by
  induction h with
  | nil => rfl
  | @cons a c w v hac _ ih =>
    rw [List.mem_cons, not_or] at hk hv
    rw [List.forall_mem_cons] at hw
    have hcons : Text.upper (c :: v) = upperLetter c ++ Text.upper v := List.flatMap_cons
    rw [hcons, upperLetter_of_sameLetter hw.1 (Ne.symm hk.1) (Ne.symm hv.1) hac, ih hw.2 hk.2 hv.2]
    rfl

lemma Spelling.upper_collapse {ws : List Text} {x : Text} (h : Spelling ws x) (hws : ∀ w ∈ ws, Spelt w)
    (hcapital : ∀ w ∈ ws, ∀ a ∈ w, isCapital a = true) (hk : ∀ w ∈ ws, 'K' ∉ w) (hx : dottedI ∉ x) :
    Text.upper x.collapse = List.intercalate [' '] ws := by
  induction h with
  | @word w v hwv =>
    obtain ⟨-, hv⟩ := hwv.isWordChar (hws w List.mem_cons_self)
    rw [collapse_eq_self fun c hc => not_isBlank_of_isWordChar (hv c hc),
      hwv.upper (hcapital w List.mem_cons_self) (hk w List.mem_cons_self) hx]
    simp [List.intercalate]
  | @words w v b x ws hwv hb0 hb hspelling ih =>
    rw [List.forall_mem_cons] at hws hcapital hk
    rw [List.mem_append, List.mem_append, not_or, not_or] at hx
    obtain ⟨-, hv⟩ := hwv.isWordChar hws.1
    obtain ⟨hx0, hstart, -⟩ := hspelling.bounds hws.2
    have hsolid : x.startsBlank = false := by
      obtain ⟨c, x, rfl⟩ := List.exists_cons_of_ne_nil hx0
      exact not_isBlank_of_isWordChar hstart
    have hcollapse : collapse (v ++ (b ++ x)) = v ++ ' ' :: collapse x := by
      rw [collapse_append_of_solid fun c hc => not_isBlank_of_isWordChar (hv c hc),
        collapse_blank_append hb hb0 hsolid]
    have hupper : Text.upper (v ++ ' ' :: collapse x) = Text.upper v ++ ' ' :: Text.upper (collapse x) := by
      rw [Text.upper, List.flatMap_append, List.flatMap_cons]
      rfl
    have hws0 : ws ≠ [] := by
      rintro rfl
      cases hspelling
    obtain ⟨u, us, rfl⟩ := List.exists_cons_of_ne_nil hws0
    rw [hcollapse, hupper, hwv.upper hcapital.1 hk.1 hx.1, ih hws.2 hcapital.2 hk.2 hx.2.2]
    simp [List.intercalate]

lemma mem_upper_of_dottedI {x : Text} (h : dottedI ∈ x) : dottedI ∈ Text.upper x := by
  have hself : upperLetter dottedI = [dottedI] := by decide
  refine List.mem_flatMap.mpr ⟨dottedI, h, ?_⟩
  rw [hself]
  exact List.mem_singleton_self dottedI

lemma mem_collapse_of_dottedI {x : Text} (h : dottedI ∈ x) : dottedI ∈ x.collapse := by
  have hink : dottedI ∈ ink x.collapse := by
    rw [ink_collapse, ink, List.mem_filter]
    exact ⟨h, by decide⟩
  exact (List.mem_filter.mp hink).1

/-! ### Keywords of a query -/

lemma exists_phrase_of_keyword {query : Text} {ts : List Token} (h : tokenize .standard query = .ok ts) {t : Token}
    (ht : t ∈ ts) {role : Role} (hk : t.kind = .keyword role) :
    ∃ p ∈ Dialect.standard.phrases role, Spelling p.words t.text := by
  obtain ⟨ctx, rest, l, hlexed, hkind⟩ := ((tokensFrom_eq_ok_iff Dialect.standard_substantial).mp h).exists_lexed t ht
  rw [hk] at hkind
  rcases hlexed.content (by simp [hkind]) (by simp [hkind, Kind.isComment]) with ⟨hquoted, -⟩ | ⟨-, hrule⟩
  · simp [hkind] at hquoted
  · generalize l.kind = kind at hkind hrule
    cases hrule with
    | keyword role' ws _ _ _ hmem hn =>
      obtain rfl := Kind.keyword.inj hkind
      obtain ⟨p, hp, rfl⟩ := Dialect.mem_lexicon_phrases.mp hmem
      exact ⟨p, hp, spelling_of_phraseSize? (Dialect.standard_orderly.spelt hp) hn⟩
    | word => exact absurd hkind (Rule.wordKind_ne_keyword _ _ _)
    | _ => simp at hkind

lemma not_mem_K_of_phrase : ∀ role ∈ [Role.clause, .breaking], ∀ p ∈ Dialect.standard.phrases role,
    ∀ w ∈ p.words, 'K' ∉ w := by
  decide +kernel

/-- The capital form of a keyword is one of some phrases without a dotted I exactly if the keyword spells it
and has no dotted I. -/
lemma upper_collapse_mem_iff {role : Role} (hrole : role ∈ [Role.clause, .breaking]) {p x : Text}
    (hp : p ∈ Dialect.standard.phrases role) (hx : Spelling p.words x) {qs : List Text}
    (hqs : ∀ q ∈ qs, dottedI ∉ q) : Text.upper x.collapse ∈ qs ↔ p ∈ qs ∧ dottedI ∉ x := by
  have horderly := Dialect.standard_orderly
  have hupper : dottedI ∉ x → Text.upper x.collapse = p := by
    intro hdotted
    rw [hx.upper_collapse (horderly.spelt hp) (isCapital_of_isSpelling (horderly.spelling role p hp))
      (not_mem_K_of_phrase role hrole p hp) hdotted, horderly.spaced role p hp]
  constructor
  · intro hmem
    have hdotted : dottedI ∉ x := fun h => hqs _ hmem (mem_upper_of_dottedI (mem_collapse_of_dottedI h))
    exact ⟨hupper hdotted ▸ hmem, hdotted⟩
  · rintro ⟨hmem, hdotted⟩
    rwa [hupper hdotted]

lemma isJoin_iff {p x : Text} (hp : p ∈ Dialect.standard.phrases .breaking) (hx : Spelling p.words x) :
    Draft.isJoin .standard x = true ↔ p ∈ Dialect.standard.joins ∧ dottedI ∉ x := by
  have hjoins : ∀ q ∈ Dialect.standard.joins, dottedI ∉ q := by decide
  rw [Draft.isJoin, List.contains_iff_mem]
  exact upper_collapse_mem_iff (by decide) hp hx hjoins

lemma isLimit_iff {p x : Text} (hp : p ∈ Dialect.standard.phrases .clause) (hx : Spelling p.words x) :
    Draft.isLimit x = true ↔ p = "LIMIT".toList ∧ dottedI ∉ x := by
  have hlimit : ∀ q ∈ ["LIMIT".toList], dottedI ∉ q := by decide
  rw [← Draft.isLimit_collapse, Draft.isLimit, beq_iff_eq, ← List.mem_singleton,
    upper_collapse_mem_iff (by decide) hp hx hlimit, List.mem_singleton]

/-- The layout knows a keyword by the phrase that the lexer has matched, unless a dotted I is in it. Every
keyword of a query spells one phrase of the vocabulary, in any letter case and with any blanks. Among the
breaking keywords those that the layout takes for joins are the ones that spell a join, and among the clause
keywords those that it takes for LIMIT are the ones that spell it, in both cases without a dotted I. -/
theorem layout_knows_keyword_iff (query : Text) (ts : List Token) (h : tokenize .standard query = .ok ts)
    (t : Token) (ht : t ∈ ts) (role : Role) (hk : t.kind = .keyword role) :
    ∃ p ∈ Dialect.standard.phrases role, Spelling p.words t.text ∧
      (∀ role', ∀ q ∈ Dialect.standard.phrases role', Spelling q.words t.text → role' = role ∧ q = p) ∧
      (role = .breaking →
        (Draft.isJoin .standard t.text = true ↔ p ∈ Dialect.standard.joins ∧ dottedI ∉ t.text)) ∧
      (role = .clause → (Draft.isLimit t.text = true ↔ p = "LIMIT".toList ∧ dottedI ∉ t.text)) := by
  have horderly := Dialect.standard_orderly
  obtain ⟨p, hp, hspelling⟩ := exists_phrase_of_keyword h ht hk
  refine ⟨p, hp, hspelling, fun role' q hq hspelling' => ?_, ?_, ?_⟩
  · have hwords := hspelling'.unique hspelling (horderly.spelling role' q hq) (horderly.spelling role p hp)
    exact horderly.eq_of_words hq hp hwords
  · rintro rfl
    exact isJoin_iff hp hspelling
  · rintro rfl
    exact isLimit_iff hp hspelling

lemma tokenize_of_spelling {role : Role} {p x : Text} (hp : p ∈ Dialect.standard.phrases role)
    (hx : Spelling p.words x) (hleft : LeftToKeywords .standard .start x) :
    tokenize .standard x = .ok [keywordToken .start role x] := by
  obtain ⟨hne, -, hend⟩ := hx.bounds (Dialect.standard_orderly.spelt hp)
  have hlongest : LongestAt .standard x role p x := by
    refine ⟨hp, ⟨[], by simp, hx, by simp [hend, Text.startsWord]⟩, ?_⟩
    rintro role' q y - ⟨rest, hsplit, -⟩
    have hlength := congrArg List.length hsplit
    rw [List.length_append] at hlength
    omega
  have hlexeme := hleft.lexeme
  have hfound : keyword? Dialect.standard.lexicon .start x = _ :=
    (keyword?_eq_some_iff Dialect.standard_orderly).mpr ⟨rfl, role, p, x, hlongest, rfl⟩
  rw [hfound, Option.getD_some] at hlexeme
  have hreads : Reads Dialect.standard.lexicon .start .start (x ++ []) _ :=
    .cons (by rwa [List.append_nil]) rfl hne (.nil _ _)
  rw [List.append_nil] at hreads
  exact tokensFrom_of_reads hreads

theorem layout_knows_keyword_iff_of_dotless_i :
    tokenize .standard "outer\tjoın".toList = .ok [keywordToken .start .breaking "outer\tjoın".toList] ∧
      Draft.isJoin .standard "outer\tjoın".toList = true := by
  have houter : InAnyCase ['O', 'U', 'T', 'E', 'R'] ['o', 'u', 't', 'e', 'r'] := sameWord_iff.mp (by decide)
  have hjoin : InAnyCase ['J', 'O', 'I', 'N'] ['j', 'o', 'ı', 'n'] := sameWord_iff.mp (by decide)
  have hmem : "OUTER JOIN".toList ∈ Dialect.standard.phrases .breaking := by decide
  have hspelling : Spelling (Text.words "OUTER JOIN".toList) "outer\tjoın".toList :=
    .words (b := ['\t']) houter (by simp) (by decide) (.word hjoin)
  have htokens := tokenize_of_spelling hmem hspelling
    ⟨by decide, by decide, by decide, rfl, by decide, by decide, by decide⟩
  obtain ⟨p, -, -, hunique, htest, -⟩ :=
    layout_knows_keyword_iff _ _ htokens _ List.mem_cons_self .breaking rfl
  obtain ⟨-, rfl⟩ := hunique _ _ hmem hspelling
  exact ⟨htokens, (htest rfl).mpr ⟨by decide, by decide⟩⟩

/-- Behind a LIMIT with a dotted I commas break the line, though the lexer has matched the phrase. -/
theorem layout_misses_limit_of_dotted_I : ¬∀ (query : Text) (ts : List Token), tokenize .standard query = .ok ts →
    ∀ t ∈ ts, t.kind = .keyword .clause → ∀ p ∈ Dialect.standard.phrases .clause, Spelling p.words t.text →
      (Draft.isLimit t.text = true ↔ p = "LIMIT".toList) := by
  intro h
  have hkeyword : keyword? Dialect.standard.lexicon .start (['L', 'İ', 'M', 'I', 'T'] ++ [',', 'x']) =
      some { kind := .keyword .clause, size := 5 } :=
    keyword?_of_clause rfl (p := ['L', 'I', 'M', 'I', 'T']) (by decide) (by decide) (by decide +kernel)
  have hplain : plain Dialect.standard.lexicon .start (['L', 'İ', 'M', 'I', 'T'] ++ [',', 'x']) = _ :=
    plain_of_startsWord (by decide) (by decide)
  have hstart : startsPlain (['L', 'İ', 'M', 'I', 'T'] ++ [',', 'x']) = true := by decide
  rw [hkeyword] at hplain
  have hlimit : lexeme Dialect.standard.lexicon .start (['L', 'İ', 'M', 'I', 'T'] ++ [',', 'x']) =
      .ok { kind := .keyword .clause, size := 5 } := by
    rw [lexeme_of_startsPlain hstart, hplain]
    rfl
  have hreads : Reads Dialect.standard.lexicon .start .start
      (['L', 'İ', 'M', 'I', 'T'] ++ ([','] ++ (['x'] ++ []))) _ :=
    .cons hlimit rfl (by simp) (.cons (lexeme_comma _ _) rfl (by simp)
      (.cons (lexeme_x rfl (by decide) (by decide)) rfl (by simp) (.nil _ _)))
  have hspelling : Spelling (Text.words "LIMIT".toList) ['L', 'İ', 'M', 'I', 'T'] :=
    .word (sameWord_iff.mp (by decide))
  have htest := h _ _ (tokensFrom_of_reads hreads) _ List.mem_cons_self rfl _ (by decide) hspelling
  exact absurd (htest.mpr rfl) (by decide)

end SqlLayout
