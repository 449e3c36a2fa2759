import SqlLayout.Proofs.Boundaries
import SqlLayout.Proofs.Reading

/-!
# Which rule reads a text

In standard SQL the first one or two characters of a text decide which rule reads it. `Lexed.cases`
and `Rule.of_plain` say how each text was read, so that later proofs follow the rules and never
unfold the lexer.
-/

namespace SqlLayout

open Lexeme

lemma bracket?_eq_none {c : Char} {r : Text} (ho : c ≠ '(') (hc : c ≠ ')') :
    bracket? Dialect.standard (c :: r) = none := by
  simp [bracket?, Dialect.standard_openers, Dialect.standard_closers, ho, hc]

lemma placeholder?_eq_none {c : Char} {r : Text} (hi : c ≠ '?') (ha : c ≠ '@') (hc : c ≠ ':') :
    placeholder? Dialect.standard (c :: r) = none := by
  simp [placeholder?, Dialect.standard_indexMarks, Dialect.standard_nameMarks, hi, ha, hc]

lemma keyword?_eq_none {ctx : Context} {t : Text} (hw : t.startsWord = false)
    (hb : t.startsBlank = false) : keyword? Dialect.standard.lexicon ctx t = none := by
  rw [keyword?]
  split
  · rfl
  · rw [List.findSome?_eq_none_iff]
    rintro ⟨role, ws⟩ hmem
    have hsome := isSome_phraseSize? (Dialect.standard_spelt hmem) hb
    rw [Text.spelled_eq_nil hw hb] at hsome
    cases ws <;> simp_all [spells]

lemma word?_eq_none {lx : Lexicon} {ctx : Context} {t : Text} (hw : t.startsWord = false) :
    word? lx ctx t = none := by
  have hnil : t.takeWhile Text.isWordChar = [] := by
    simpa using Text.takeWhile_word_append (x := []) (fun _ h => h) hw
  simp [word?, hnil]

lemma number?_eq_none {ctx : Context} {c : Char} {r : Text} (hm : c ≠ '-')
    (hd : c.isDigit = false) : number? ctx (c :: r) = none := by
  rw [number?, numberSize?_eq_none hm hd]
  simp

lemma plain_eq (ctx : Context) (t : Text) :
    plain Dialect.standard.lexicon ctx t =
      ((bracket? Dialect.standard t).or ((placeholder? Dialect.standard t).or ((number? ctx t).or
        ((keyword? Dialect.standard.lexicon ctx t).or
          (word? Dialect.standard.lexicon ctx t))))).getD (operator t) := by
  simp only [plain, Option.orElse_eq_orElse, Option.orElse_eq_or]
  rfl

section

variable (ctx : Context) (r : Text)

lemma plain_opening :
    plain Dialect.standard.lexicon ctx ('(' :: r) = { kind := .opening, size := 1 } := rfl

lemma plain_closing :
    plain Dialect.standard.lexicon ctx (')' :: r) = { kind := .closing, size := 1 } := rfl

lemma plain_index :
    plain Dialect.standard.lexicon ctx ('?' :: r) =
      { kind := .placeholder, size := (r.takeWhile Text.isDigit).length + 1,
        key := if (r.takeWhile Text.isDigit).isEmpty then none
          else some (r.takeWhile Text.isDigit) } := rfl

lemma plain_named {c : Char} (hc : c = '@' ∨ c = ':') :
    plain Dialect.standard.lexicon ctx (c :: r) =
      ((quotedName? r).or (bareName? r)).getD (operator (c :: r)) := by
  have hw : Text.isWordChar c = false := by rcases hc with rfl | rfl <;> decide
  have hb : Text.isBlank c = false := by rcases hc with rfl | rfl <;> decide
  have hd : c.isDigit = false ∧ c ≠ '-' ∧ c ≠ '(' ∧ c ≠ ')' := by
    rcases hc with rfl | rfl <;> decide
  have hp : placeholder? Dialect.standard (c :: r) = (quotedName? r).or (bareName? r) := by
    rcases hc with rfl | rfl <;>
      simp [placeholder?, Dialect.standard_indexMarks, Dialect.standard_nameMarks]
  rw [plain_eq, bracket?_eq_none hd.2.2.1 hd.2.2.2, hp, number?_eq_none hd.2.1 hd.1,
    keyword?_eq_none (t := c :: r) hw hb, word?_eq_none (t := c :: r) hw]
  simp

lemma plain_minus :
    plain Dialect.standard.lexicon ctx ('-' :: r) =
      (number? ctx ('-' :: r)).getD (operator ('-' :: r)) := by
  have hw : Text.startsWord ('-' :: r) = false := show Text.isWordChar '-' = false by decide
  have hb : Text.startsBlank ('-' :: r) = false := show Text.isBlank '-' = false by decide
  rw [plain_eq, bracket?_eq_none (by decide) (by decide),
    placeholder?_eq_none (by decide) (by decide) (by decide), keyword?_eq_none hw hb,
    word?_eq_none hw]
  simp

lemma plain_word {c : Char} (hc : Text.isWordChar c = true) :
    plain Dialect.standard.lexicon ctx (c :: r) =
      ((number? ctx (c :: r)).or ((keyword? Dialect.standard.lexicon ctx (c :: r)).or
        (word? Dialect.standard.lexicon ctx (c :: r)))).getD (operator (c :: r)) := by
  have hne : ∀ d : Char, Text.isWordChar d = false → c ≠ d := by
    rintro d hd rfl
    simp [hc] at hd
  have hsigns : ∀ d ∈ ['(', ')', '?', '@', ':'], Text.isWordChar d = false :=
    List.all_iff_forall_prop.mp (by decide)
  rw [plain_eq, bracket?_eq_none (hne _ (hsigns _ (by simp))) (hne _ (hsigns _ (by simp))),
    placeholder?_eq_none (hne _ (hsigns _ (by simp))) (hne _ (hsigns _ (by simp)))
      (hne _ (hsigns _ (by simp)))]
  simp

/-- The characters that begin more than an operator. -/
def headSigns : List Char := ['(', ')', '?', '@', ':', '-']

lemma plain_sign {c : Char} (hc : c ∉ headSigns) (hw : Text.isWordChar c = false)
    (hb : Text.isBlank c = false) :
    plain Dialect.standard.lexicon ctx (c :: r) = operator (c :: r) := by
  simp only [headSigns, List.mem_cons, List.not_mem_nil, or_false, not_or] at hc
  obtain ⟨h1, h2, h3, h4, h5, h6⟩ := hc
  have hd : c.isDigit = false := by
    cases h : c.isDigit with
    | false => rfl
    | true => simp [isWordChar_of_isDigit h] at hw
  rw [plain_eq, bracket?_eq_none h1 h2, placeholder?_eq_none h3 h4 h5, number?_eq_none h6 hd,
    keyword?_eq_none (t := c :: r) hw hb, word?_eq_none (t := c :: r) hw]
  rfl

end

/-! ### Comments and strings -/

lemma startsWith_one (a c : Char) (r : Text) : Text.startsWith (c :: r) [a] = (c == a) := by
  simp [Text.startsWith, List.isPrefixOf, BEq.comm]

lemma startsWith_two (a b c : Char) (r : Text) :
    Text.startsWith (c :: r) [a, b] = (c == a && r.head? == some b) := by
  cases r with
  | nil => simp [Text.startsWith, List.isPrefixOf]
  | cons d ds =>
    simp [Text.startsWith, List.isPrefixOf, BEq.comm (a := c), BEq.comm (a := d)]

/-- What a string begins with at the head of a text, if one begins there. -/
def openerAt? (c : Char) (r : Text) : Option Text :=
  if c = 'N' ∧ r.head? = some '\x27' then some ['N', '\x27']
  else if c = '\x22' ∨ c = '\x27' ∨ c = '\x60' ∨ c = '[' then some [c]
  else none

lemma find?_quotes (c : Char) (r : Text) :
    Dialect.standard.lexicon.quotes.find? (Text.startsWith (c :: r)) = openerAt? c r := by
  rw [Dialect.standard_quotes, openerAt?]
  simp only [List.find?_cons, startsWith_two, startsWith_one, List.find?_nil]
  by_cases hn : c = 'N' ∧ r.head? = some '\x27'
  · rw [if_pos hn, hn.1, hn.2]
    rfl
  · have hn' : (c == 'N' && r.head? == some '\x27') = false := by
      rw [Bool.eq_false_iff]
      simpa using hn
    rw [if_neg hn, hn']
    by_cases h1 : c = '\x22'
    · simp [h1]
    by_cases h2 : c = '\x27'
    · simp [h2]
    by_cases h3 : c = '\x60'
    · simp [h3]
    by_cases h4 : c = '['
    · simp [h4]
    simp [h1, h2, h3, h4, beq_eq_false_iff_ne.mpr]

lemma lexeme_cons (ctx : Context) (c : Char) (r : Text) :
    lexeme Dialect.standard.lexicon ctx (c :: r) =
      if Text.isBlank c then
        .ok { kind := .blank, size := ((c :: r).takeWhile Text.isBlank).length }
      else if c = '-' ∧ r.head? = some '-' ∨ c = '#' then
        .ok { kind := .lineComment, size := Text.lineLength (c :: r) }
      else if c = '/' ∧ r.head? = some '*' then Lexeme.blockComment (r.drop 1)
      else
        match openerAt? c r with
        | some opener => Lexeme.string opener ((c :: r).drop opener.length)
        | none => .ok (plain Dialect.standard.lexicon ctx (c :: r)) := by
  have hmarks : (Dialect.standard.lexicon.dialect.commentMarks.any (Text.startsWith (c :: r)) =
      true) ↔ (c = '-' ∧ r.head? = some '-' ∨ c = '#') := by
    have hm : Dialect.standard.lexicon.dialect.commentMarks = [['-', '-'], ['#']] := rfl
    rw [hm]
    simp only [List.any_cons, startsWith_two, startsWith_one, List.any_nil, Bool.or_false,
      Bool.or_eq_true, Bool.and_eq_true, beq_iff_eq]
  have hblock : (Text.startsWith (c :: r) ['/', '*'] = true) ↔ (c = '/' ∧ r.head? = some '*') := by
    rw [startsWith_two, Bool.and_eq_true, beq_iff_eq, beq_iff_eq]
  rw [lexeme, Text.startsBlank_cons, find?_quotes]
  simp only [hmarks, hblock]
  rfl

/-- Whether the rules for blanks, comments and strings leave a text alone. -/
def startsPlain : Text → Bool
  | [] => false
  | c :: r =>
    decide (Text.isBlank c = false ∧ ¬(c = '-' ∧ r.head? = some '-' ∨ c = '#') ∧
      ¬(c = '/' ∧ r.head? = some '*') ∧ openerAt? c r = none)

lemma startsPlain_cons {c : Char} {r : Text} :
    startsPlain (c :: r) = true ↔
      Text.isBlank c = false ∧ ¬(c = '-' ∧ r.head? = some '-' ∨ c = '#') ∧
        ¬(c = '/' ∧ r.head? = some '*') ∧ openerAt? c r = none :=
  decide_eq_true_iff

lemma lexeme_of_startsPlain {ctx : Context} {t : Text} (h : startsPlain t = true) :
    lexeme Dialect.standard.lexicon ctx t = .ok (plain Dialect.standard.lexicon ctx t) := by
  cases t with
  | nil => simp [startsPlain] at h
  | cons c r =>
    obtain ⟨hb, hm, hc, hq⟩ := startsPlain_cons.mp h
    rw [lexeme_cons, if_neg (by simp [hb]), if_neg hm, if_neg hc, hq]

lemma openerAt?_eq_none {c : Char} {r : Text} :
    openerAt? c r = none ↔ ¬(c = 'N' ∧ r.head? = some '\x27') ∧
      ¬(c = '\x22' ∨ c = '\x27' ∨ c = '\x60' ∨ c = '[') := by
  rw [openerAt?]
  split
  · next h => simp [h]
  · next h => split <;> simp_all

lemma startsPlain_of_word {c d : Char} (hc : Text.isWordChar c = true)
    (hd : Text.isWordChar d = true) (t : Text) : startsPlain (c :: d :: t) = true := by
  have hsigns : ∀ a ∈ ['-', '#', '/', '\x27', '\x22', '\x60', '['], Text.isWordChar a = false :=
    List.all_iff_forall_prop.mp (by decide)
  have hne : ∀ a ∈ ['-', '#', '/', '\x27', '\x22', '\x60', '['], c ≠ a ∧ d ≠ a := by
    intro a ha
    constructor <;>
    · rintro rfl
      simp [hsigns _ ha] at hc hd
  simp only [List.forall_mem_cons] at hne
  rw [startsPlain_cons, openerAt?_eq_none]
  simp [Text.not_isBlank_of_isWordChar hc, hne]

lemma startsPlain_append {x s k : Text} (h : startsPlain (x ++ s) = true) (hx : x ≠ [])
    (hk : 2 ≤ x.length ∨ (∀ c ∈ x, c ∉ ['-', '/', 'N']) ∨
      ∀ c ∈ k.head?, c ∉ ['-', '*', '\x27']) : startsPlain (x ++ k) = true := by
  match x, hx with
  | c :: d :: r, _ => exact h
  | [c], _ =>
    rw [List.cons_append, List.nil_append, startsPlain_cons, openerAt?_eq_none] at h ⊢
    obtain ⟨hb, hm, -, hq⟩ := h
    have hpair : ∀ a b : Char, a ∈ ['-', '/', 'N'] → b ∈ ['-', '*', '\x27'] →
        ¬(c = a ∧ k.head? = some b) := by
      rintro a b ha hb ⟨rfl, hkb⟩
      rcases hk with hk | hk | hk
      · simp at hk
      · exact hk c (by simp) ha
      · exact hk b hkb hb
    refine ⟨hb, ?_, hpair _ _ (by simp) (by simp), hpair _ _ (by simp) (by simp), hq.2⟩
    rintro (hdash | hhash)
    · exact hpair _ _ (by simp) (by simp) hdash
    · exact hm (.inr hhash)

/-! ### Searching inside a text -/

lemma startsWith_append {w x : Text} (hw : w.length ≤ x.length) (k : Text) :
    Text.startsWith (x ++ k) w = Text.startsWith x w := by
  rw [Bool.eq_iff_iff, Text.startsWith, Text.startsWith, List.isPrefixOf_iff_prefix,
    List.isPrefixOf_iff_prefix]
  exact ⟨fun h => List.prefix_of_prefix_length_le h (List.prefix_append x k) hw,
    fun h => h.trans (List.prefix_append x k)⟩

lemma find?_prefix {w t : Text} {n : Nat} (h : Text.find? w t = some n) : w <+: t.drop n := by
  induction t generalizing n with
  | nil =>
    rw [Text.find?] at h
    split at h
    · next hw => simp [List.isEmpty_iff.mp hw]
    · simp at h
  | cons c cs ih =>
    rw [Text.find?] at h
    split at h
    · next hs =>
      obtain rfl : 0 = n := by simpa using h
      exact List.isPrefixOf_iff_prefix.mp hs
    · obtain ⟨m, hm, rfl⟩ := Option.map_eq_some_iff.mp h
      exact ih hm

lemma eq_of_prefix_of_length {x s w : Text} (hpre : w <+: x ++ s) (hlen : w.length = x.length) : w = x :=
  (List.prefix_of_prefix_length_le hpre (List.prefix_append x s) hlen.le).eq_of_length hlen

lemma eq_take_append_of_find? {w x s : Text} {n : Nat} (h : Text.find? w (x ++ s) = some n)
    (hn : x.length = n + w.length) : x = x.take n ++ w := by
  have hpre := find?_prefix h
  rw [List.drop_append_of_le_length (by omega)] at hpre
  rw [eq_of_prefix_of_length hpre (by rw [List.length_drop]; omega), List.take_append_drop]

lemma find?_append {w x s : Text} {n : Nat} (h : Text.find? w (x ++ s) = some n)
    (hn : n + w.length ≤ x.length) (k : Text) : Text.find? w (x ++ k) = some n := by
  induction x generalizing n with
  | nil =>
    obtain ⟨rfl, hw⟩ : n = 0 ∧ w = [] := by simpa using hn
    subst hw
    cases k <;> simp [Text.find?, Text.startsWith]
  | cons c cs ih =>
    have hw : w.length ≤ (c :: cs).length := by omega
    rw [List.cons_append, Text.find?, ← List.cons_append, startsWith_append hw] at h ⊢
    split at h
    · next hs => rw [if_pos hs, ← h]
    · next hs =>
      rw [if_neg hs]
      obtain ⟨m, hm, rfl⟩ := Option.map_eq_some_iff.mp h
      rw [ih hm (by simp only [List.length_cons] at hn; omega)]
      rfl

lemma eq_of_quoteSize?_one {closer c : Char} {s : Text}
    (h : quoteSize? closer (c :: s) = some 1) : c = closer := by
  cases s with
  | nil =>
    rw [quoteSize?] at h
    split at h
    · assumption
    · simp at h
  | cons d s =>
    rw [quoteSize?] at h
    split at h
    · obtain ⟨m, -, hm⟩ := Option.map_eq_some_iff.mp h
      omega
    · split at h
      · assumption
      · obtain ⟨m, hm, h1⟩ := Option.map_eq_some_iff.mp h
        have := (quoteSize?_bounds hm).1
        omega

/-- A string ends with its closing quote, and it ends there in front of anything but another
one. -/
lemma quoteSize?_spec {closer : Char} {x s : Text}
    (h : quoteSize? closer (x ++ s) = some x.length) :
    x.getLast? = some closer ∧
      ∀ k : Text, k.head? ≠ some closer → quoteSize? closer (x ++ k) = some x.length := by
  induction hn : x.length using Nat.strongRecOn generalizing x with
  | _ n ih =>
    match x with
    | [] =>
      have := (quoteSize?_bounds h).1
      simp at this
    | [c] =>
      obtain rfl := eq_of_quoteSize?_one h
      refine ⟨rfl, fun k hk => ?_⟩
      subst hn
      cases k with
      | nil => simp [quoteSize?]
      | cons e k =>
        have he : e ≠ c := by simpa using hk
        have hesc : ¬(c = '\\' ∧ backslashEscapes c = true) := by
          rintro ⟨rfl, he⟩
          revert he
          decide
        rw [List.cons_append, List.nil_append, quoteSize?, if_neg hesc, if_pos rfl, if_neg he]
        rfl
    | c :: d :: r =>
      subst hn
      have hpair : (quoteSize? closer (r ++ s)).map (· + 2) = some (c :: d :: r).length →
          (c :: d :: r).getLast? = some closer ∧ ∀ k : Text, k.head? ≠ some closer →
            (quoteSize? closer (r ++ k)).map (· + 2) = some (c :: d :: r).length := by
        intro hr
        obtain ⟨m, hm, hlen⟩ := Option.map_eq_some_iff.mp hr
        obtain rfl : m = r.length := by simpa using hlen
        obtain ⟨hlast, hk⟩ := ih r.length (by simp only [List.length_cons]; omega) hm rfl
        refine ⟨?_, fun k hk0 => by rw [hk k hk0]; rfl⟩
        rw [List.getLast?_cons, List.getLast?_cons, hlast]
        rfl
      simp only [List.cons_append, quoteSize?] at h ⊢
      split at h
      · next he =>
        simp only [if_pos he]
        exact hpair h
      · next he =>
        simp only [if_neg he]
        split at h
        · next hc =>
          simp only [if_pos hc]
          split at h
          · next hd =>
            simp only [if_pos hd]
            exact hpair h
          · simp at h
        · next hc =>
          simp only [if_neg hc]
          obtain ⟨m, hm, hlen⟩ := Option.map_eq_some_iff.mp h
          obtain rfl : m = (d :: r).length := by simpa using hlen
          obtain ⟨hlast, hk⟩ := ih (d :: r).length (by simp) (x := d :: r) hm rfl
          refine ⟨?_, fun k hk0 => ?_⟩
          · rw [List.getLast?_cons, hlast]
            rfl
          · rw [← List.cons_append, hk k hk0]
            rfl

/-! ### Reading in front of a text -/

/-- A text is exactly what is read in front of another one. -/
structure Lexed (ctx : Context) (x s : Text) (l : Lexeme) : Prop where
  eq : lexeme Dialect.standard.lexicon ctx (x ++ s) = .ok l
  size : l.size = x.length
  ne_nil : x ≠ []

/-- A string has the same opener in front of any text, so that only its closing quote matters. -/
def IsString (x s : Text) : Prop :=
  ∃ opener inner, x = opener ++ inner ∧ opener ∈ Dialect.standard.quotes ∧
    quoteSize? (closerOf opener) (inner ++ s) = some inner.length ∧
    ∀ ctx k, lexeme Dialect.standard.lexicon ctx (x ++ k) = Lexeme.string opener (inner ++ k)

/-- A block comment is closed inside its own text. -/
def IsBlockComment (x : Text) : Prop :=
  ∃ body, x = ['/', '*'] ++ (body ++ ['*', '/']) ∧
    ∀ k, Text.find? ['*', '/'] (body ++ ['*', '/'] ++ k) = some body.length

lemma IsBlockComment.eq_of_append {x y s k : Text} (hx : IsBlockComment x) (hy : IsBlockComment y)
    (h : x ++ s = y ++ k) : x = y := by
  obtain ⟨body, rfl, hbody⟩ := hx
  obtain ⟨body', rfl, hbody'⟩ := hy
  have hrest : body ++ ['*', '/'] ++ s = body' ++ ['*', '/'] ++ k := by simpa using h
  have hlength : body.length = body'.length := by
    have hfound := hbody s
    rw [hrest, hbody' k] at hfound
    exact (Option.some.inj hfound).symm
  rw [(List.append_inj hrest (by simp [hlength])).1]

namespace Lexed

variable {ctx : Context} {x s : Text} {l : Lexeme}

lemma isBlockComment_of_find? {r : Text} (hc : (r ++ s).head? = some '*')
    (heq : Lexeme.blockComment ((r ++ s).drop 1) = .ok l) (hsize : l.size = r.length + 1) :
    l.kind = .blockComment ∧ IsBlockComment ('/' :: r) := by
  rw [Lexeme.blockComment] at heq
  split at heq
  · next n hn =>
    obtain rfl := Except.ok.inj heq
    obtain ⟨d, r, rfl⟩ : ∃ d r', r = d :: r' := by
      cases r with
      | nil => simp at hsize
      | cons d r => exact ⟨d, r, rfl⟩
    obtain rfl : d = '*' := by simpa using hc
    have hlen : r.length = n + 2 := by simpa using hsize.symm
    rw [List.cons_append, List.drop_one, List.tail_cons] at hn
    have hbody := eq_take_append_of_find? hn hlen
    have hn' : (r.take n).length = n := List.length_take_of_le (by omega)
    refine ⟨rfl, r.take n, by rw [← hbody]; rfl, fun k => ?_⟩
    rw [← hbody, hn']
    exact find?_append hn (by simp [hlen]) k
  · simp at heq

lemma isString_of_openerAt? {c : Char} {r opener : Text} (hb : Text.isBlank c = false)
    (hm : ¬(c = '-' ∧ (r ++ s).head? = some '-' ∨ c = '#'))
    (hc : ¬(c = '/' ∧ (r ++ s).head? = some '*')) (hq : openerAt? c (r ++ s) = some opener)
    (heq : Lexeme.string opener ((c :: (r ++ s)).drop opener.length) = .ok l)
    (hsize : l.size = (c :: r).length) : l.kind = .quoted ∧ IsString (c :: r) s := by
  have hopener : opener ∈ Dialect.standard.quotes ∧ opener <+: c :: (r ++ s) := by
    rw [← find?_quotes] at hq
    have hstarts : Text.startsWith (c :: (r ++ s)) opener = true := List.find?_some hq
    exact ⟨mem_byLength.mp (List.mem_of_find?_eq_some hq),
      List.isPrefixOf_iff_prefix.mp hstarts⟩
  have hne : opener ≠ [] := Dialect.standard_substantial.quotes _ hopener.1
  rw [Lexeme.string, if_neg (by simpa using hne)] at heq
  simp only at heq
  split at heq
  · next n hn =>
    obtain rfl := Except.ok.inj heq
    have hpos := (quoteSize?_bounds hn).1
    have hlen : opener.length + n = (c :: r).length := hsize
    have hwhole : opener <+: c :: r ++ s := hopener.2
    have hpre : opener <+: c :: r :=
      List.prefix_of_prefix_length_le hwhole (List.prefix_append _ _) (by omega)
    obtain ⟨inner, hinner⟩ := hpre
    obtain rfl : n = inner.length := by
      rw [← hinner, List.length_append] at hlen
      omega
    have hdrop : ∀ k, (c :: (r ++ k)).drop opener.length = inner ++ k := by
      intro k
      rw [← List.cons_append, ← hinner, List.append_assoc, List.drop_left]
    have hr : r ≠ [] := by
      rintro rfl
      have := List.length_pos_iff.mpr hne
      simp only [List.length_cons, List.length_nil] at hlen
      omega
    have hhead : ∀ k, (r ++ k).head? = (r ++ s).head? := by
      intro k
      obtain ⟨d, r, rfl⟩ := List.exists_cons_of_ne_nil hr
      rfl
    refine ⟨rfl, opener, inner, hinner.symm, hopener.1, by rw [← hdrop s, hn], fun ctx k => ?_⟩
    have hq' : openerAt? c (r ++ k) = some opener := by
      rw [openerAt?, hhead, ← openerAt?, hq]
    rw [List.cons_append, lexeme_cons, if_neg (by simp [hb]), hhead, if_neg hm, if_neg hc, hq']
    simp only [hdrop]
  · simp at heq

/-- The rules apart from one another: a text is blank, a comment, a string, or plain. -/
lemma cases (h : Lexed ctx x s l) :
    (l.kind = .blank ∧ x.startsBlank = true) ∨
    (l.kind = .lineComment ∧ (x.head? = some '-' ∨ x.head? = some '#') ∧
      x.length = Text.lineLength (x ++ s)) ∨
    (l.kind = .blockComment ∧ IsBlockComment x) ∨ (l.kind = .quoted ∧ IsString x s) ∨
    (startsPlain (x ++ s) = true ∧ l = plain Dialect.standard.lexicon ctx (x ++ s)) := by
  obtain ⟨heq, hsize, hne⟩ := h
  obtain ⟨c, r, rfl⟩ := List.exists_cons_of_ne_nil hne
  rw [List.cons_append, lexeme_cons] at heq
  split at heq
  · next hb =>
    obtain rfl := Except.ok.inj heq
    exact .inl ⟨rfl, hb⟩
  · next hb =>
    split at heq
    · next hm =>
      obtain rfl := Except.ok.inj heq
      exact .inr (.inl ⟨rfl, hm.imp (fun h => congrArg some h.1) (congrArg some), hsize.symm⟩)
    · next hm =>
      split at heq
      · next hc =>
        obtain ⟨rfl, hstar⟩ := hc
        exact .inr (.inr (.inl (isBlockComment_of_find? hstar heq hsize)))
      · next hc =>
        split at heq
        · next opener hq =>
          exact .inr (.inr (.inr (.inl (isString_of_openerAt? (by simpa using hb) hm hc hq heq hsize))))
        · next hq =>
          obtain rfl := Except.ok.inj heq
          exact .inr (.inr (.inr (.inr ⟨startsPlain_cons.mpr ⟨by simpa using hb, hm, hc, hq⟩, rfl⟩)))

end Lexed

/-- The kind of a word: some words are brackets unless a dot stands directly before. -/
def wordKind (afterDot : Bool) (x : Text) : Kind :=
  if afterDot then .word
  else if Text.upper x = ['C', 'A', 'S', 'E'] then .opening
  else if Text.upper x = ['E', 'N', 'D'] then .closing
  else .word

lemma wordKind_cases (afterDot : Bool) (x : Text) :
    wordKind afterDot x = .word ∨
    (afterDot = false ∧ wordKind afterDot x = .opening ∧ x.upper = ['C', 'A', 'S', 'E']) ∨
    (afterDot = false ∧ wordKind afterDot x = .closing ∧ x.upper = ['E', 'N', 'D']) := by
  cases afterDot with
  | true => exact .inl rfl
  | false =>
    by_cases hcase : x.upper = ['C', 'A', 'S', 'E']
    · exact .inr (.inl ⟨rfl, by simp [wordKind, hcase], hcase⟩)
    · by_cases hend : x.upper = ['E', 'N', 'D']
      · exact .inr (.inr ⟨rfl, by simp [wordKind, hend], hend⟩)
      · exact .inl (by simp [wordKind, hcase, hend])

/-- How a plain text is read in front of another one, and as what kind. -/
inductive Rule (ctx : Context) (x s : Text) : Kind → Prop
  | opening : x = ['('] → Rule ctx x s .opening
  | closing : x = [')'] → Rule ctx x s .closing
  | index (ds : Text) : x = '?' :: ds → (ds ++ s).takeWhile Text.isDigit = ds →
      Rule ctx x s .placeholder
  | quotedName (c q : Char) (y : Text) : c = '@' ∨ c = ':' → Text.isWordChar q = false →
      x = c :: q :: (y ++ [q]) →
      (∀ k, quotedName? (q :: (y ++ [q] ++ k)) =
        some { kind := .placeholder, size := y.length + 3, key := some y }) →
      Rule ctx x s .placeholder
  | bareName (c : Char) (y : Text) : c = '@' ∨ c = ':' → x = c :: y → y ≠ [] →
      (∀ d ∈ y, Text.isWordChar d = true) → s.startsWord = false → Rule ctx x s .placeholder
  | number : numberSize? (x ++ s) = some x.length →
      (ctx.afterOperand = true → x.head? ≠ some '-') → Rule ctx x s .number
  | keyword (role : Role) (ws : List Text) : ctx.afterDot = false → x.startsWord = true →
      numberSize? (x ++ s) = none →
      (role, ws) ∈ Dialect.standard.lexicon.phrases → phraseSize? ws (x ++ s) = some x.length →
      keyword? Dialect.standard.lexicon ctx (x ++ s) =
        some { kind := .keyword role, size := x.length } →
      Rule ctx x s (.keyword role)
  | word : x ≠ [] → (∀ c ∈ x, Text.isWordChar c = true) → s.startsWord = false →
      numberSize? (x ++ s) = none → keyword? Dialect.standard.lexicon ctx (x ++ s) = none →
      Rule ctx x s (wordKind ctx.afterDot x)
  | operator : x ≠ [] → x.startsWord = false → (∀ c ∈ x.head?, c ∉ ['(', ')', '?']) →
      (x = ['@'] ∨ x = [':'] → s.startsWord = false) →
      (Lexeme.operator (x ++ s)).size = x.length → Rule ctx x s .operator

namespace Rule

variable {ctx : Context} {x s : Text}

lemma word?_eq {ctx : Context} {t : Text} (h : t.startsWord = true) :
    word? Dialect.standard.lexicon ctx t =
      some { kind := wordKind ctx.afterDot (t.takeWhile Text.isWordChar),
             size := (t.takeWhile Text.isWordChar).length } := by
  have hne : t.takeWhile Text.isWordChar ≠ [] := by
    cases t with
    | nil => simp [Text.startsWord] at h
    | cons c cs => simp [show Text.isWordChar c = true from h]
  rw [word?, if_neg (by simpa using hne), wordKind, Dialect.standard_openWords,
    Dialect.standard_closeWords]
  cases ctx.afterDot <;> simp

lemma not_startsWord_of_takeWhile (h : (x ++ s).takeWhile Text.isWordChar = x) :
    s.startsWord = false := by
  cases s with
  | nil => rfl
  | cons c cs =>
    cases hc : Text.isWordChar c with
    | false => exact hc
    | true =>
      have hx : ∀ d ∈ x, Text.isWordChar d = true := by
        intro d hd
        rw [← h] at hd
        exact List.all_eq_true.mp List.all_takeWhile d hd
      rw [List.takeWhile_append_of_pos hx, List.takeWhile_cons, if_pos hc] at h
      simp at h

lemma of_quotedName? {c : Char} {r : Text} {l : Lexeme} (hc : c = '@' ∨ c = ':')
    (hq : quotedName? (r ++ s) = some l) (hs : l.size = (c :: r).length) :
    Rule ctx (c :: r) s l.kind := by
  cases r with
  | nil =>
    rw [quotedName?.eq_def] at hq
    split at hq
    · simp at hq
    · split at hq
      · obtain ⟨n, -, rfl⟩ := Option.map_eq_some_iff.mp hq
        simp at hs
      · simp at hq
  | cons q r =>
    rw [List.cons_append, quotedName?] at hq
    split at hq
    · next hquote =>
      obtain ⟨n, hn, rfl⟩ := Option.map_eq_some_iff.mp hq
      have hlen : r.length = n + 1 := by simpa using hs.symm
      have hy := eq_take_append_of_find? hn hlen
      have hyn : (r.take n).length = n := List.length_take_of_le (by omega)
      have hword : Text.isWordChar q = false := by
        rcases hquote with rfl | rfl | rfl <;> decide
      refine .quotedName c q (r.take n) hc hword (by rw [← hy]) fun k => ?_
      rw [← hy, quotedName?, if_pos hquote, find?_append hn (by simp [hlen]) k, Option.map_some,
        hyn, List.take_append_of_le_length (by omega)]
    · simp at hq

lemma of_bareName? {c : Char} {r : Text} {l : Lexeme} (hc : c = '@' ∨ c = ':')
    (hn : bareName? (r ++ s) = some l) (hs : l.size = (c :: r).length) :
    Rule ctx (c :: r) s l.kind := by
  rw [bareName?] at hn
  split at hn
  · simp at hn
  · next hname =>
    obtain rfl := Option.some.inj hn
    have hr := eq_of_prefix_of_length (x := r) (List.takeWhile_prefix _) (by simpa using hs)
    rw [hr] at hname
    refine .bareName c r hc rfl (by simpa using hname) (fun d hd => ?_)
      (not_startsWord_of_takeWhile hr)
    rw [← hr] at hd
    exact List.all_eq_true.mp List.all_takeWhile d hd

lemma of_number? {l : Lexeme} (hn : number? ctx (x ++ s) = some l) (hs : l.size = x.length) :
    Rule ctx x s l.kind := by
  rw [number?] at hn
  split at hn
  · simp at hn
  · next hsign =>
    obtain ⟨n, hsize, rfl⟩ := Option.map_eq_some_iff.mp hn
    obtain rfl : n = x.length := hs
    exact .number hsize fun ho hminus => hsign (by simp [ho, hminus])

lemma of_keyword? {l : Lexeme} (hw : x.startsWord = true) (hnum : numberSize? (x ++ s) = none)
    (hkey : keyword? Dialect.standard.lexicon ctx (x ++ s) = some l) (hs : l.size = x.length) :
    Rule ctx x s l.kind := by
  have hfound := hkey
  rw [keyword?] at hfound
  split at hfound
  · simp at hfound
  · next hdot =>
    obtain ⟨⟨role, ws⟩, hmem, hl⟩ := List.exists_of_findSome?_eq_some hfound
    obtain ⟨n, hn, rfl⟩ := Option.map_eq_some_iff.mp hl
    obtain rfl : n = x.length := hs
    exact .keyword role ws (by simpa using hdot) hw hnum hmem hn hkey

lemma of_word? {l : Lexeme} (hx : x ≠ []) (hw : x.startsWord = true) (hnum : numberSize? (x ++ s) = none)
    (hkey : keyword? Dialect.standard.lexicon ctx (x ++ s) = none)
    (hl : word? Dialect.standard.lexicon ctx (x ++ s) = some l) (hs : l.size = x.length) :
    Rule ctx x s l.kind := by
  rw [word?_eq (by rw [Text.startsWord_append hx, hw]), Option.some.injEq] at hl
  subst hl
  have hr : (x ++ s).takeWhile Text.isWordChar = x := 
    eq_of_prefix_of_length (List.takeWhile_prefix _) hs
  rw [hr]
  refine .word hx (fun d hd => ?_) (not_startsWord_of_takeWhile hr) hnum hkey
  rw [← hr] at hd
  exact List.all_eq_true.mp List.all_takeWhile d hd

lemma of_plain_word {c : Char} {r : Text} (hc : Text.isWordChar c = true)
    (hs : (plain Dialect.standard.lexicon ctx (c :: r ++ s)).size = (c :: r).length) :
    Rule ctx (c :: r) s (plain Dialect.standard.lexicon ctx (c :: r ++ s)).kind := by
  have hminus : c ≠ '-' := by
    rintro rfl
    exact absurd hc (by decide)
  have hplain := plain_word ctx (r ++ s) hc
  rw [← List.cons_append] at hplain
  rw [hplain] at hs ⊢
  cases hn : number? ctx (c :: r ++ s) with
  | some l =>
    simp only [hn, Option.some_or, Option.getD_some] at hs ⊢
    exact of_number? hn hs
  | none =>
    have hnum : numberSize? (c :: r ++ s) = none := by simpa [number?, hminus] using hn
    cases hkey : keyword? Dialect.standard.lexicon ctx (c :: r ++ s) with
    | some l =>
      simp only [hn, hkey, Option.none_or, Option.some_or, Option.getD_some] at hs ⊢
      exact of_keyword? hc hnum hkey hs
    | none =>
      have hword : word? Dialect.standard.lexicon ctx (c :: r ++ s) = some _ := word?_eq hc
      simp only [hn, hkey, Option.none_or] at hs ⊢
      rw [hword, Option.getD_some] at hs ⊢
      exact of_word? (by simp) hc hnum hkey hword hs

lemma of_plain_named {c : Char} {r : Text} (hc : c = '@' ∨ c = ':')
    (hs : (plain Dialect.standard.lexicon ctx (c :: r ++ s)).size = (c :: r).length) :
    Rule ctx (c :: r) s (plain Dialect.standard.lexicon ctx (c :: r ++ s)).kind := by
  rw [List.cons_append, plain_named _ _ hc] at hs ⊢
  cases hq : quotedName? (r ++ s) with
  | some l =>
    simp only [hq, Option.some_or, Option.getD_some] at hs ⊢
    exact of_quotedName? hc hq hs
  | none =>
    cases hn : bareName? (r ++ s) with
    | some l =>
      simp only [hq, hn, Option.none_or, Option.getD_some] at hs ⊢
      exact of_bareName? hc hn hs
    | none =>
      simp only [hq, hn, Option.none_or, Option.getD_none] at hs ⊢
      have hw : Text.isWordChar c = false := by rcases hc with rfl | rfl <;> decide
      have hsign : ∀ d ∈ (c :: r).head?, d ∉ ['(', ')', '?'] := by rcases hc with rfl | rfl <;> simp
      refine .operator (by simp) hw hsign (fun hone => ?_) hs
      obtain rfl : r = [] := by rcases hone with h | h <;> exact (List.cons.inj h).2
      by_cases hname : s.takeWhile Text.isWordChar = []
      · exact not_startsWord_of_takeWhile (x := []) hname
      · simp [bareName?, hname] at hn

lemma of_plain_minus {r : Text}
    (hs : (plain Dialect.standard.lexicon ctx ('-' :: r ++ s)).size = ('-' :: r).length) :
    Rule ctx ('-' :: r) s (plain Dialect.standard.lexicon ctx ('-' :: r ++ s)).kind := by
  have hplain := plain_minus ctx (r ++ s)
  rw [← List.cons_append] at hplain
  rw [hplain] at hs ⊢
  cases hn : number? ctx ('-' :: r ++ s) with
  | some l =>
    simp only [hn, Option.getD_some] at hs ⊢
    exact of_number? hn hs
  | none =>
    simp only [hn, Option.getD_none] at hs ⊢
    have hw : Text.isWordChar '-' = false := by decide
    exact .operator (by simp) hw (by simp) (by simp) hs

lemma of_plain {l : Lexeme} (hp : startsPlain (x ++ s) = true)
    (hl : l = plain Dialect.standard.lexicon ctx (x ++ s)) (hs : l.size = x.length) (hx : x ≠ []) :
    Rule ctx x s l.kind := by
  subst hl
  obtain ⟨c, r, rfl⟩ := List.exists_cons_of_ne_nil hx
  by_cases h1 : c = '('
  · subst h1
    exact .opening (by simpa [plain_opening] using hs.symm)
  by_cases h2 : c = ')'
  · subst h2
    exact .closing (by simpa [plain_closing] using hs.symm)
  by_cases h3 : c = '?'
  · subst h3
    rw [List.cons_append, plain_index] at hs ⊢
    exact .index r rfl (eq_of_prefix_of_length (List.takeWhile_prefix _) (by simpa using hs))
  by_cases h4 : c = '@' ∨ c = ':'
  · exact of_plain_named h4 hs
  by_cases h5 : c = '-'
  · subst h5
    exact of_plain_minus hs
  by_cases h6 : Text.isWordChar c = true
  · exact of_plain_word h6 hs
  have hw : Text.isWordChar c = false := by simpa using h6
  have hb : Text.isBlank c = false := (startsPlain_cons.mp hp).1
  rw [not_or] at h4
  rw [List.cons_append, plain_sign _ _ (by simp [headSigns, h1, h2, h3, h4, h5]) hw hb] at hs ⊢
  exact .operator hx hw (by simp [h1, h2, h3]) (by simp [h4]) hs

end Rule

end SqlLayout
