import SqlLayout.Proofs.Rereading

/-!
# Reading words and keywords again

A word is read again as a word or as a keyword of the same size, and a keyword as the same keyword,
if the words spelled from there on are the same. Directly behind a dot every word is a plain word.
-/

namespace SqlLayout

open Lexeme

lemma not_isDigit_of_sameLetter {a c : Char} (ha : a.isUpper = true) (h : sameLetter a c = true) :
    c.isDigit = false := by
  have haa := isCapital_spec (c := a) (by simp [isCapital, ha])
  cases hd : c.isDigit with
  | false => rfl
  | true =>
    have hc := toNat_lt_of_isDigit hd
    rw [sameLetter, beq_iff_eq, Text.fold, if_pos haa.1, Text.fold, if_pos hc] at h
    have hlow : c.toLower.isDigit = true :=
      Text.ascii_forall (P := fun c => c.isDigit = true → c.toLower.isDigit = true)
        (by decide) hc hd
    have hup : a.toLower.isDigit = false :=
      Text.ascii_forall (P := fun a => a.isUpper = true → a.toLower.isDigit = false)
        (by decide) haa.1 ha
    rw [h, hlow] at hup
    exact hup

lemma keyword_head {role : Role} {ws : List Text} {x s : Text}
    (hmem : (role, ws) ∈ Dialect.standard.lexicon.phrases)
    (h : phraseSize? ws (x ++ s) = some x.length) :
    ∃ c d y, x = c :: d :: y ∧ Text.isWordChar c = true ∧ Text.isWordChar d = true ∧
      c.isDigit = false := by
  obtain ⟨⟨a, b, w, vs, rfl, ha, hb⟩, hspelt⟩ :=
    isSpelling_cons (Dialect.standard_isSpelling hmem)
  have hfirst : ∀ v : Text, sameWord (a :: b :: w) v = true →
      ∃ c d y, v = c :: d :: y ∧ Text.isWordChar c = true ∧ Text.isWordChar d = true ∧
        c.isDigit = false := by
    intro v hv
    rw [sameWord, Bool.and_eq_true] at hv
    have hlength : 2 ≤ v.length := by
      have hsame := hv.1
      simp only [beq_iff_eq, List.length_cons] at hsame
      omega
    obtain ⟨c, y, rfl⟩ := List.exists_cons_of_length_pos (by omega : 0 < v.length)
    obtain ⟨d, y, rfl⟩ := List.exists_cons_of_length_pos (by simp at hlength; omega : 0 < y.length)
    have hletters := hv.2
    simp only [startsWithWord, Bool.and_eq_true] at hletters
    have hword := hspelt (a :: b :: w) (by simp)
    have haa := hword.2 a (by simp)
    have hbb := hword.2 b (by simp)
    exact ⟨c, d, y, rfl, isWordChar_of_sameLetter haa.1 haa.2 hletters.1,
      isWordChar_of_sameLetter hbb.1 hbb.2 hletters.2.1,
      not_isDigit_of_sameLetter ha hletters.1⟩
  rcases phraseSize?_parts (hspelt _ (by simp)) (fun u hu => hspelt u (by simp [hu])) h with
    ⟨-, hs, -, -⟩ | ⟨-, v, b', y', rfl, hs, -⟩
  · exact hfirst x hs
  · obtain ⟨c, d, y, rfl, hc, hd, hdigit⟩ := hfirst v hs
    exact ⟨c, d, y ++ (b' ++ y'), rfl, hc, hd, hdigit⟩

section

variable {t u : Text} (ht : t.startsBlank = false) (hu : u.startsBlank = false)
  (hspelled : u.spelled = t.spelled)
include ht hu hspelled

lemma isSome_phraseSize?_of_spelled {role : Role} {ws : List Text}
    (hmem : (role, ws) ∈ Dialect.standard.lexicon.phrases) :
    (phraseSize? ws u).isSome = (phraseSize? ws t).isSome := by
  have hspelt := Dialect.standard_spelt hmem
  rw [isSome_phraseSize? hspelt hu, isSome_phraseSize? hspelt ht, hspelled]

lemma keyword?_eq_none_of_spelled {ctx ctx' : Context} (hdot : ctx.afterDot = false)
    (h : keyword? Dialect.standard.lexicon ctx t = none) :
    keyword? Dialect.standard.lexicon ctx' u = none := by
  rw [keyword?, if_neg (by simp [hdot]), List.findSome?_eq_none_iff] at h
  rw [keyword?]
  split
  · rfl
  · rw [List.findSome?_eq_none_iff]
    rintro ⟨role, ws⟩ hmem
    have hnone : phraseSize? ws t = none := Option.map_eq_none_iff.mp (h ⟨role, ws⟩ hmem)
    have hsome := isSome_phraseSize?_of_spelled ht hu hspelled hmem
    rw [hnone, Option.isSome_none, Option.isSome_eq_false_iff, Option.isNone_iff_eq_none] at hsome
    simp [hsome]

end

lemma keyword?_collapse {ctx ctx' : Context} {role : Role} {x s k : Text} (hx : x ≠ [])
    (hb : x.startsBlank = false) (hdot : ctx'.afterDot = false) (hk : k.startsWord = false)
    (hspelled : (x.collapse ++ k).spelled = (x ++ s).spelled)
    (h : keyword? Dialect.standard.lexicon ctx (x ++ s) =
      some { kind := .keyword role, size := x.length }) :
    keyword? Dialect.standard.lexicon ctx' (x.collapse ++ k) =
      some { kind := .keyword role, size := x.collapse.length } := by
  have hne : x.collapse ≠ [] := by
    intro h0
    have he := Text.isEmpty_collapse x
    rw [h0] at he
    exact hx (List.isEmpty_iff.mp he.symm)
  have ht : (x ++ s).startsBlank = false := by rw [Text.startsBlank_append hx, hb]
  have hu : (x.collapse ++ k).startsBlank = false := by
    rw [Text.startsBlank_append hne, Text.startsBlank_collapse, hb]
  rw [keyword?] at h
  split at h
  · simp at h
  obtain ⟨as, ⟨role', ws⟩, bs, hsplit, hfound, hbefore⟩ := List.findSome?_eq_some_iff.mp h
  obtain ⟨n, hn, hl⟩ := Option.map_eq_some_iff.mp hfound
  simp only [Lexeme.mk.injEq, Kind.keyword.injEq, and_true] at hl
  obtain ⟨rfl, rfl⟩ := hl
  have hmem : (role', ws) ∈ Dialect.standard.lexicon.phrases := by simp [hsplit]
  rw [keyword?, if_neg (by simp [hdot]), List.findSome?_eq_some_iff]
  refine ⟨as, ⟨role', ws⟩, bs, hsplit, ?_, ?_⟩
  · simp [phraseSize?_collapse (Dialect.standard_spelt hmem) hn hk]
  · rintro ⟨role, vs⟩ hvs
    have hmem' : (role, vs) ∈ Dialect.standard.lexicon.phrases := by simp [hsplit, hvs]
    have hnone : phraseSize? vs (x ++ s) = none :=
      Option.map_eq_none_iff.mp (hbefore ⟨role, vs⟩ hvs)
    have hsome := isSome_phraseSize?_of_spelled ht hu hspelled hmem'
    rw [hnone, Option.isSome_none, Option.isSome_eq_false_iff, Option.isNone_iff_eq_none] at hsome
    simp [hsome]

/-! ### The rules for words -/

lemma keyword?_of_not_afterDot {ctx : Context} (h : ctx.afterDot = false) (lx : Lexicon) (t : Text) :
    keyword? lx ctx t = keyword? lx .start t := by
  rw [keyword?, keyword?, h]
  rfl

section

variable {ctx : Context} {x k : Text} {c : Char} {y : Text}

lemma plain_of_startsWord (hx : x.startsWord = true) (hnum : numberSize? (x ++ k) = none) :
    plain Dialect.standard.lexicon ctx (x ++ k) =
      (keyword? Dialect.standard.lexicon ctx (x ++ k)).getD
        { kind := wordKind ctx.afterDot ((x ++ k).takeWhile Text.isWordChar),
          size := ((x ++ k).takeWhile Text.isWordChar).length } := by
  cases x with
  | nil => simp [Text.startsWord] at hx
  | cons c y =>
    have hn : number? ctx (c :: (y ++ k)) = none := by
      rw [number?]
      split
      · rfl
      · rw [← List.cons_append, hnum]
        rfl
    rw [List.cons_append, plain_word _ _ hx, hn, Rule.word?_eq (t := c :: (y ++ k)) hx]
    cases keyword? Dialect.standard.lexicon ctx (c :: (y ++ k)) <;> rfl

lemma plain_afterDot (hdot : ctx.afterDot = true) (hx : x.startsWord = true)
    (hnum : numberSize? (x ++ k) = none) :
    plain Dialect.standard.lexicon ctx (x ++ k) =
      { kind := .word, size := ((x ++ k).takeWhile Text.isWordChar).length } := by
  have hk : keyword? Dialect.standard.lexicon ctx (x ++ k) = none := by
    rw [keyword?, if_pos hdot]
  rw [plain_of_startsWord hx hnum, hk, hdot]
  rfl

end

namespace Rule

variable {ctx ctx' : Context} {x s k : Text} {kind : Kind} {role : Role}

lemma isOperand_wordKind_false {x : Text} (h : (wordKind false x).isOperand = true) (b : Bool) :
    (wordKind b x).isOperand = true := by
  cases b with
  | false => exact h
  | true => rfl

lemma isOperand_wordKind (b : Bool) (x : Text) :
    (wordKind b x).isOperand = true ∨ wordKind b x = .opening := by
  rcases wordKind_cases b x with h | ⟨-, h, -⟩ | ⟨-, h, -⟩ <;> simp [h, Kind.isOperand]

lemma reread_word (hword : ∀ c ∈ x, Text.isWordChar c = true) (hne : x ≠ [])
    (hnum : numberSize? (x ++ k) = none)
    (hkey : keyword? Dialect.standard.lexicon ctx (x ++ s) = none) (hp : startsPlain (x ++ k) = true)
    (hk : k.startsWord = false)
    (hspelled : ctx.afterDot = false → (x ++ k).spelled = (x ++ s).spelled)
    (hlong : ctx.afterDot = true → ctx'.afterDot = false →
      ∀ l, keyword? Dialect.standard.lexicon ctx' (x ++ k) = some l → l.size = x.length) :
    ∃ l, lexeme Dialect.standard.lexicon ctx' (x ++ k) = .ok l ∧ l.size = x.length ∧
      (ctx.afterDot = false ∨ ctx'.afterDot = true → l.kind = wordKind ctx'.afterDot x) ∧
      (l.kind.isOperand = true → (wordKind ctx.afterDot x).isOperand = true ∨
        ctx'.afterDot = true ∧ wordKind ctx.afterDot x = .opening) := by
  obtain ⟨c, y, rfl⟩ := List.exists_cons_of_ne_nil hne
  have hw : Text.isWordChar c = true := hword c (by simp)
  have hb : Text.isBlank c = false := Text.not_isBlank_of_isWordChar hw
  rw [lexeme_of_startsPlain hp]
  refine ⟨_, rfl, ?_⟩
  cases hdot' : ctx'.afterDot with
  | true =>
    rw [plain_afterDot hdot' (x := c :: y) hw hnum, Text.takeWhile_of_word hword hk]
    refine ⟨rfl, fun _ => rfl, fun _ => ?_⟩
    rcases isOperand_wordKind ctx.afterDot (c :: y) with h | h
    · exact .inl h
    · exact .inr ⟨rfl, h⟩
  | false =>
    rw [plain_of_startsWord (x := c :: y) hw hnum, Text.takeWhile_of_word hword hk, hdot']
    cases hdot : ctx.afterDot with
    | false =>
      rw [keyword?_eq_none_of_spelled (t := c :: y ++ s) hb (u := c :: y ++ k) hb (hspelled hdot)
        hdot hkey]
      exact ⟨rfl, fun _ => rfl, fun h => .inl h⟩
    | true =>
      cases hkey' : keyword? Dialect.standard.lexicon ctx' (c :: y ++ k) with
      | none => exact ⟨rfl, by simp, fun h => .inl (isOperand_wordKind_false h true)⟩
      | some l => exact ⟨hlong hdot hdot' l hkey', by simp, fun _ => .inl rfl⟩

/-- A keyword is read again as the same keyword, and directly behind a dot as a word if it is a
single one. -/
lemma reread_keyword {ws : List Text} (hmem : (role, ws) ∈ Dialect.standard.lexicon.phrases)
    (hn : phraseSize? ws (x ++ s) = some x.length)
    (hkey : keyword? Dialect.standard.lexicon ctx (x ++ s) =
      some { kind := .keyword role, size := x.length })
    (hf : Follows x.collapse k)
    (hspelled : (x.collapse ++ k).spelled = (x ++ s).spelled)
    (hdot : ctx'.afterDot = true → ' ' ∉ x.collapse) :
    ∃ l, lexeme Dialect.standard.lexicon ctx' (x.collapse ++ k) = .ok l ∧
      l.size = x.collapse.length ∧ (ctx'.afterDot = false → l.kind = .keyword role) ∧
      (l.kind.isOperand = true → ctx'.afterDot = true) := by
  obtain ⟨hwords, hend, -⟩ := phraseSize?_shape (Dialect.standard_spelt hmem) hn
  obtain ⟨c, d, y, hx, hc, hd, hdigit⟩ := keyword_head hmem hn
  have hb := Text.not_isBlank_of_isWordChar hc
  have hcol : x.collapse = c :: d :: Text.collapse y := by
    rw [hx]
    exact Text.collapse_append_of_solid (v := [c, d])
      (by simp [hb, Text.not_isBlank_of_isWordChar hd]) y
  have hsigns : c ≠ '-' ∧ c ≠ '?' := by
    constructor <;>
    · rintro rfl
      revert hc
      decide
  have hrun : x.collapse.runsOn = true := by
    rw [Text.runsOn, Text.endsWord_collapse hend, hcol]
    simp [hsigns]
  have hk := hf.word hrun
  have hp' : startsPlain (x.collapse ++ k) = true := by
    rw [hcol]
    exact startsPlain_of_word hc hd _
  have hnum : numberSize? (x.collapse ++ k) = none := by
    rw [hcol]
    exact numberSize?_eq_none hsigns.1 hdigit
  have hw : x.collapse.startsWord = true := by
    rw [hcol]
    exact hc
  rw [lexeme_of_startsPlain hp']
  refine ⟨_, rfl, ?_⟩
  cases hdot' : ctx'.afterDot with
  | true =>
    have hall : ∀ e ∈ x.collapse, Text.isWordChar e = true := by
      intro e he
      rcases Text.mem_collapse he with rfl | ⟨hmem, hblank⟩
      · exact absurd he (hdot hdot')
      · simpa [hblank] using List.all_eq_true.mp hwords e hmem
    rw [plain_afterDot hdot' hw hnum, Text.takeWhile_of_word hall hk]
    simp
  | false =>
    have hne : x ≠ [] := by simp [hx]
    have hb' : x.startsBlank = false := by
      rw [hx]
      exact hb
    rw [plain_of_startsWord hw hnum, keyword?_collapse hne hb' hdot' hk hspelled hkey]
    simp [Kind.isOperand]

end Rule

end SqlLayout
