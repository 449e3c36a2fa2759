import Mathlib.Data.List.Chain
import SqlLayout.Proofs.Keywords
import SqlLayout.Proofs.Pieces

/-!
# Tokens and their pieces

`Typeset` relates the tokens of a query to the pieces that a page gets from them: every token that is
neither blank nor a comma held back gives one piece, and a comma held back is released in front of the
next token that is no comment. A run of the layout sets its tokens in this way.
-/

namespace SqlLayout

open Lexeme

/-! ### Tokens that were read are proper -/

namespace Text

lemma Solid.of_getLast? {t : Text} {c : Char} (hb : t.startsBlank = false)
    (hc : t.getLast? = some c) (hblank : isBlank c = false) : t.Solid := by
  obtain ⟨u, rfl⟩ := List.getLast?_eq_some_iff.mp hc
  exact ⟨by simp, hb, by simp [trimEnd, dropEndWhile, hblank]⟩

lemma Solid.of_endsWord {t : Text} (hb : t.startsBlank = false) (h : t.endsWord = true) :
    t.Solid := by
  cases hc : t.getLast? with
  | none => simp [endsWord, hc] at h
  | some c =>
    have hw : isWordChar c = true := by simpa [endsWord, hc] using h
    exact .of_getLast? hb hc (not_isBlank_of_isWordChar hw)

end Text

lemma Rule.solid {ctx : Context} {x s : Text} {kind : Kind} (h : Rule ctx x s kind) (hx : x ≠ [])
    (hp : startsPlain (x ++ s) = true) : x.Solid := by
  have hb : x.startsBlank = false := by
    obtain ⟨c, y, rfl⟩ := List.exists_cons_of_ne_nil hx
    exact (startsPlain_cons.mp hp).1
  cases h with
  | opening hx' | closing hx' =>
    subst hx'
    exact .of_getLast? hb rfl (by decide)
  | index ds hx' hds =>
    subst hx'
    by_cases hnil : ds = []
    · subst hnil
      exact .of_getLast? hb rfl (by decide)
    · refine .of_endsWord hb ?_
      rw [← List.singleton_append, Text.endsWord_append hnil]
      refine Text.endsWord_of_forall hnil fun c hc => ?_
      rw [← hds] at hc
      exact isWordChar_of_isDigitSign (List.all_eq_true.mp List.all_takeWhile c hc)
  | quotedName c q y hc hq hx' hk =>
    subst hx'
    have hquote := hk []
    rw [quotedName?] at hquote
    split at hquote
    · next hq' =>
      refine .of_getLast? (c := q) hb (by simp [List.getLast?_cons]) ?_
      rcases hq' with rfl | rfl | rfl <;> decide
    · simp at hquote
  | bareName c y hc hx' hy hword hs =>
    subst hx'
    refine .of_endsWord hb ?_
    rw [← List.singleton_append, Text.endsWord_append hy]
    exact Text.endsWord_of_forall hy hword
  | number hn =>
    obtain ⟨ds, r, ht, hlen, -, hend, -⟩ := numberSize?_spec hn
    obtain ⟨rfl, -⟩ := List.append_inj ht hlen.symm
    exact .of_endsWord hb hend
  | keyword role ws hdot hw hnum hmem hn =>
    exact .of_endsWord hb (phraseSize?_shape (Dialect.standard_spelt hmem) hn).2.1
  | word _ hword => exact .of_endsWord hb (Text.endsWord_of_forall hx hword)
  | operator _ hw hhead hnamed hs =>
    have hlong : ∀ op ∈ longOperators, (op.getLast?.any fun c => !Text.isBlank c) = true := by decide
    rcases operator_text hs with hmem | hone
    · obtain ⟨c, hc, hblank⟩ := (Option.any_eq_true _ _).mp (hlong x hmem)
      exact .of_getLast? hb hc (by simpa using hblank)
    · obtain ⟨c, rfl⟩ := List.length_eq_one_iff.mp hone
      exact .of_getLast? hb rfl hb

lemma Rule.kind_cases {ctx : Context} {x s : Text} {kind : Kind} (h : Rule ctx x s kind) :
    kind ≠ .blank ∧ kind.isComment = false ∧ ∀ name, kind ≠ .unclassified name := by
  cases h
  case word =>
    rcases wordKind_cases ctx.afterDot x with h | ⟨-, h, -⟩ | ⟨-, h, -⟩ <;> simp [h, Kind.isComment]
  all_goals simp [Kind.isComment]

lemma IsString.solid {x s : Text} (h : IsString x s) : x.Solid := by
  obtain ⟨opener, inner, rfl, hmem, hsize, -⟩ := h
  have hquotes : ∀ q ∈ Dialect.standard.quotes, q ≠ [] ∧ q.startsBlank = false ∧
      Text.isBlank (closerOf q) = false := by decide
  obtain ⟨hne, hb, hcloser⟩ := hquotes opener hmem
  obtain ⟨hlast, -⟩ := quoteSize?_spec hsize
  exact .of_getLast? (by rw [Text.startsBlank_append hne, hb]) (by simp [List.getLast?_append, hlast])
    hcloser

namespace Lexed

variable {ctx : Context} {x s : Text} {l : Lexeme}

lemma content (h : Lexed ctx x s l) (hb : l.kind ≠ .blank) (hc : l.kind.isComment = false) :
    (l.kind = .quoted ∧ IsString x s) ∨ (startsPlain (x ++ s) = true ∧ Rule ctx x s l.kind) := by
  rcases h.cases with ⟨hk, -⟩ | ⟨hk, -⟩ | ⟨hk, -⟩ | hq | ⟨hp, hl⟩
  · exact absurd hk hb
  · simp [hk, Kind.isComment] at hc
  · simp [hk, Kind.isComment] at hc
  · exact .inl hq
  · exact .inr ⟨hp, .of_plain hp hl h.size h.ne_nil⟩

lemma solid (h : Lexed ctx x s l) (hb : l.kind ≠ .blank) (hc : l.kind.isComment = false) :
    x.Solid := by
  rcases h.content hb hc with ⟨-, hq⟩ | ⟨hp, hr⟩
  · exact hq.solid
  · exact hr.solid h.ne_nil hp

lemma proper (h : Lexed ctx x s l) {t : Token} (ht : t.text = x) (hk : t.kind = l.kind) :
    t.Proper := by
  rw [Token.Proper, hk, ht]
  rcases h.cases with ⟨hl, -⟩ | ⟨hl, -⟩ | ⟨hl, hx⟩ | ⟨hl, hx⟩ | ⟨hp, hl⟩
  · simp [hl]
  · simp [hl]
  · simpa [hl] using hx
  · simpa [hl] using hx.solid
  · have hr := Rule.of_plain hp hl h.size h.ne_nil
    obtain ⟨hb, hc, hu⟩ := hr.kind_cases
    have hsolid := hr.solid h.ne_nil hp
    cases hkind : l.kind <;> simp_all [Kind.isComment]

end Lexed

lemma Reads.exists_lexed {ctx : Context} {p : Position} {x : Text} {ts : List Token}
    (h : Reads Dialect.standard.lexicon ctx p x ts) :
    ∀ t ∈ ts, ∃ ctx s l, Lexed ctx t.text s l ∧ l.kind = t.kind := by
  induction h with
  | nil => simp
  | @cons ctx p text rest l ts hl hs hne _ ih =>
    exact List.forall_mem_cons.mpr ⟨⟨ctx, rest, l, ⟨hl, hs, hne⟩, rfl⟩, ih⟩

/-! ### Setting tokens -/

def source (ts : List Token) : Text :=
  (ts.map Token.text).flatten

lemma source_cons (t : Token) (ts : List Token) : source (t :: ts) = t.text ++ source ts := rfl

/-- A token is what stands at the head of a text, given the tokens behind it. -/
def Heads (ctx : Context) (t : Token) (ts : List Token) : Prop :=
  ∃ l, Lexed ctx t.text (source ts) l ∧ l.kind = t.kind

lemma Heads.content {ctx : Context} {t : Token} {ts : List Token} (h : Heads ctx t ts)
    (hb : t.kind ≠ .blank) (hc : t.kind.isComment = false) :
    (t.kind = .quoted ∧ IsString t.text (source ts)) ∨
    (startsPlain (t.text ++ source ts) = true ∧ Rule ctx t.text (source ts) t.kind) := by
  obtain ⟨l, hl, hk⟩ := h
  rw [← hk] at hb hc ⊢
  exact hl.content hb hc

/-- How tokens become pieces in a context with a number of commas held back, and how many are held
back at the end. -/
inductive Typeset : Context → Nat → List Token → List Piece → Nat → Prop
  | done (ctx : Context) (n : Nat) : Typeset ctx n [] [] n
  | blank {ctx : Context} {n m : Nat} {t : Token} {ts : List Token} {ps : List Piece} :
      Heads ctx t ts → t.kind = .blank → Typeset (ctx.next t.kind t.text) n ts ps m →
      Typeset ctx n (t :: ts) ps m
  | hold {ctx : Context} {n m : Nat} {t : Token} {ts : List Token} {ps : List Piece} :
      Heads ctx t ts → t.kind = .operator → t.text = [','] →
      Typeset (ctx.next t.kind t.text) (n + 1) ts ps m → Typeset ctx n (t :: ts) ps m
  | release {ctx : Context} {n m : Nat} {ts : List Token} {ps : List Piece} (gap : Text) :
      gap.isAllBlank = true → Typeset ctx n ts ps m →
      Typeset ctx (n + 1) ts (⟨gap, .operator, [',']⟩ :: ps) m
  | comment {ctx : Context} {n m : Nat} {t : Token} {ts : List Token} {ps : List Piece}
      (gap text : Text) : Heads ctx t ts → t.kind.isComment = true → gap.isAllBlank = true →
      IsBlockComment text → Typeset (ctx.next t.kind t.text) n ts ps m →
      Typeset ctx n (t :: ts) (⟨gap, .blockComment, text⟩ :: ps) m
  | set {ctx : Context} {m : Nat} {t : Token} {ts : List Token} {ps : List Piece} (gap : Text) :
      Heads ctx t ts → t.kind ≠ .blank → t.kind.isComment = false → gap.isAllBlank = true →
      Typeset (ctx.next t.kind t.text) 0 ts ps m →
      Typeset ctx 0 (t :: ts) (⟨gap, t.kind, t.written⟩ :: ps) m

/-- A token behind commas that were held back; the blanks stand in front of the first of them. -/
def behindCommas (gap : Text) (kind : Kind) (text : Text) : Nat → List Piece
  | 0 => [⟨gap, kind, text⟩]
  | n + 1 => ⟨gap, .operator, [',']⟩ :: behindCommas [] kind text n

lemma joined_behindCommas (gap : Text) (kind : Kind) (text : Text) (n : Nat) (ps : List Piece) :
    joined (behindCommas gap kind text n ++ ps) =
      gap ++ (List.replicate n ',' ++ text ++ joined ps) := by
  induction n generalizing gap with
  | zero => simp [behindCommas]
  | succ n ih => simp [behindCommas, ih, List.replicate_succ]

lemma Typeset.behindCommas {ctx : Context} {m : Nat} {t : Token} {ts : List Token} {ps : List Piece}
    {gap : Text} (ht : Heads ctx t ts) (hb : t.kind ≠ .blank) (hc : t.kind.isComment = false)
    (hgap : gap.isAllBlank = true) (h : Typeset (ctx.next t.kind t.text) 0 ts ps m) (n : Nat) :
    Typeset ctx n (t :: ts) (behindCommas gap t.kind t.written n ++ ps) m := by
  induction n generalizing gap with
  | zero => exact .set gap ht hb hc hgap h
  | succ n ih => exact .release gap hgap (ih rfl)

/-- Two neighbouring pieces touch only if the first is loose or the second clings. -/
def Seam (p q : Piece) : Prop :=
  q.gap = [] → p.Loose ∨ q.Clings

lemma isChain_behindCommas {gap : Text} {kind : Kind} {text : Text} {ps : List Piece} (n : Nat)
    (hps : ps.IsChain Seam) (hhead : ∀ q ∈ ps.head?, Seam ⟨gap, kind, text⟩ q) :
    (behindCommas gap kind text n ++ ps).IsChain Seam := by
  induction n generalizing gap with
  | zero => exact List.isChain_cons.mpr ⟨hhead, hps⟩
  | succ n ih =>
    refine List.isChain_cons.mpr ⟨fun q hq _ => .inl (.inl (by simp)), ih hhead⟩

namespace Draft

/-- The pieces that a page gets from one token. -/
def added (o : Options) (s : Draft) (t : Token) (s' : Draft) : List Piece :=
  if t.kind = .blank ∨ t.kind = .operator ∧ s'.held ≠ [] then []
  else if t.kind.isComment then [⟨s.gapTo s', .blockComment, s.shown o t⟩]
  else behindCommas (s.gapTo s') t.kind (s.shown o t) s.held.length

/-- The pieces that a page gets from the tokens that come at the given index. -/
def pieces (o : Options) (s : Draft) (index : Nat) : List Token → List Piece
  | [] => []
  | t :: ts =>
    match s.step o index t ts with
    | .error _ => []
    | .ok s' => s.added o t s' ++ pieces o s' (index + 1) ts

/-- From one draft to another, tokens are set as pieces, and the page goes on with their text. -/
structure Composes (ctx : Context) (ts : List Token) (s : Draft) (ps : List Piece) (s' : Draft) :
    Prop where
  typeset : Typeset ctx s.held.length ts ps s'.held.length
  held : ∀ c ∈ s'.held, c = ','
  body : s'.body = s.body ++ joined ps
  chain : ps.IsChain Seam
  head : ∀ q ∈ ps.head?, q.gap = [] → q.Clings ∨ s.tail = []

section

variable {o : Options} {ctx : Context} {t : Token} {ts : List Token} {ps : List Piece}
  {s s₁ s' : Draft}

lemma Composes.cons (ht : Heads ctx t ts) (hheld : ∀ c ∈ s.held, c = ',') (h : Places o s t s₁)
    (hrest : Composes (ctx.next t.kind t.text) ts s₁ ps s') :
    Composes ctx (t :: ts) s (s.added o t s₁ ++ ps) s' := by
  cases h with
  | blank hk hp hh =>
    obtain ⟨hbody, htail⟩ := body_tail_of_page hp
    have hadded : s.added o t s₁ = [] := by simp [added, hk]
    rw [hadded, List.nil_append]
    exact ⟨.blank ht hk (hh ▸ hrest.typeset), hrest.held, hbody ▸ hrest.body, hrest.chain,
      htail ▸ hrest.head⟩
  | hold hk htext hbody htail hh =>
    have hadded : s.added o t s₁ = [] := by simp [added, hk, hh]
    have hlen : s₁.held.length = s.held.length + 1 := by simp [hh]
    rw [hadded, List.nil_append]
    exact ⟨.hold ht hk htext (hlen ▸ hrest.typeset), hrest.held, hbody ▸ hrest.body, hrest.chain,
      fun q hq hgap => .inl ((hrest.head q hq hgap).resolve_right htail)⟩
  | comment gap hc hblock hsets hh =>
    have hsolid := hblock.solid
    have hadded : s.added o t s₁ = [⟨gap, .blockComment, s.shown o t⟩] := by
      have hk : t.kind ≠ .blank ∧ t.kind ≠ .operator := by
        constructor <;>
        · intro hk
          simp [hk, Kind.isComment] at hc
      simp [added, hk, hc, gapTo_of_sets hsets hsolid.head hsolid.ne_nil]
    rw [hadded]
    refine ⟨.comment gap _ ht hc hsets.blank hblock (hh ▸ hrest.typeset), hrest.held, ?_, ?_, ?_⟩
    · rw [hrest.body, hsets.body]
      simp
    · exact List.isChain_cons.mpr
        ⟨fun q hq hgap => .inr ((hrest.head q hq hgap).resolve_right hsets.loose), hrest.chain⟩
    · intro q hq hgap
      obtain rfl : _ = q := by simpa using hq
      exact .inr ((hsets.clings hgap).resolve_left id)
  | set gap hb hc hsolid hsets hh =>
    have hsolid' := hsolid.commas_append hheld
    have hwritten : s.shown o t = t.written := shown_eq_written hc
    have hcommas : s.held = List.replicate s.held.length ',' := List.eq_replicate_iff.mpr ⟨rfl, hheld⟩
    have hadded : s.added o t s₁ = behindCommas gap t.kind t.written s.held.length := by
      simp [added, hb, hc, hh, gapTo_of_sets hsets hsolid'.head hsolid'.ne_nil, hwritten]
    rw [hadded]
    rw [hwritten] at hsets
    refine ⟨.behindCommas ht hb hc hsets.blank (by simpa [hh] using hrest.typeset) _, hrest.held, ?_,
      isChain_behindCommas _ hrest.chain ?_, ?_⟩
    · rw [hrest.body, hsets.body, joined_behindCommas, ← hcommas]
      simp
    · exact fun q hq hgap => (hrest.head q hq hgap).symm.imp_left hsets.loose
    · intro q hq hgap
      cases hn : s.held.length with
      | zero =>
        obtain rfl : _ = q := by simpa [hn, behindCommas] using hq
        exact hsets.clings hgap
      | succ n =>
        obtain rfl : _ = q := by simpa [hn, behindCommas] using hq
        exact .inl (.inl (by simp))

end

/-- A run sets its tokens, and its page is the text of the pieces. -/
lemma run_composes {o : Options} (hunit : o.unit.isAllBlank = true) (hbind : o.bindings = .none)
    {ctx : Context} {p : Position} {t : Text} {ts : List Token}
    (h : Reads Dialect.standard.lexicon ctx p t ts) (s : Draft) (index : Nat)
    (hheld : ∀ c ∈ s.held, c = ',') :
    ∃ s', s.run o index ts = (s', none) ∧ Composes ctx ts s (s.pieces o index ts) s' := by
  induction h generalizing s index with
  | nil ctx p =>
    exact ⟨s, rfl, ⟨.done ctx _, hheld, by simp [pieces], by simp [pieces], by simp [pieces]⟩⟩
  | @cons ctx p text rest l ts hl hs hne hr ih =>
    have hheads : Heads ctx (l.token p text) ts := by
      refine ⟨l, ⟨?_, hs, hne⟩, rfl⟩
      rw [source, hr.texts]
      exact hl
    obtain ⟨l', hlexed, hkind⟩ := hheads
    have hproper := hlexed.proper (t := l.token p text) rfl hkind.symm
    have hstep := step_eq_after (s := s) hbind hproper index ts
    have hplaces := places_after hunit (s := s) hproper hheld index ts
    generalize s.after o index (l.token p text) ts = s₁ at hstep hplaces
    obtain ⟨s', hrun, hrest⟩ := ih s₁ (index + 1) (hplaces.held_commas hheld)
    refine ⟨s', by rw [run, hstep, ← hrun], ?_⟩
    rw [pieces, hstep]
    exact .cons ⟨l', hlexed, hkind⟩ hheld hplaces hrest

end Draft

end SqlLayout
