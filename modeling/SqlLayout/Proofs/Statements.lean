import Mathlib.Data.List.Infix
import SqlLayout.Proofs.Abreast
import SqlLayout.Proofs.CleanLines
import SqlLayout.Proofs.Idempotence
import SqlLayout.Proofs.LineStarts
import SqlLayout.Proofs.Separators
import SqlLayout.Proofs.SourceBlanks

/-!
# Statements one behind another

A statement separator does not begin the layout anew. It forgets the page, the brackets and the commas
of the statement before, if its brackets are balanced, but not the levels of its clauses: these show in
the next statement where it starts a line, up to a keyword that ends them.
-/

namespace SqlLayout

open InlineBlock Lexeme

/-- Every bracket is closed, and none that is not open. -/
structure Balanced (ts : List Token) : Prop where
  settled : openings ts = closings ts
  nested : ∀ part, part <+: ts → closings part ≤ openings part

instance (ts : List Token) : Decidable (Balanced ts) :=
  decidable_of_iff (openings ts = closings ts ∧ ∀ part ∈ ts.inits, closings part ≤ openings part)
    ⟨fun h => ⟨h.1, fun part hpart => h.2 part ((List.mem_inits part ts).mpr hpart)⟩,
      fun h => ⟨h.settled, fun part hpart => h.nested part ((List.mem_inits part ts).mp hpart)⟩⟩

lemma openings_append (ts us : List Token) : openings (ts ++ us) = openings ts + openings us :=
  List.countP_append

lemma closings_append (ts us : List Token) : closings (ts ++ us) = closings ts + closings us :=
  List.countP_append

lemma Balanced.closes {ts rest : List Token} (h : Balanced ts) (hrest : rest <:+ ts) :
    openings rest ≤ closings rest := by
  obtain ⟨front, rfl⟩ := hrest
  have hsettled := h.settled
  have hfront := h.nested front (List.prefix_append _ _)
  rw [openings_append, closings_append] at hsettled
  omega

lemma nesting_of_nested {ts : List Token} (h : ∀ part, part <+: ts → closings part ≤ openings part) :
    nesting ts + closings ts = openings ts := by
  induction ts using List.reverseRecOn with
  | nil => rfl
  | append_singleton ts t ih =>
    have hts := ih fun part hpart => h part (hpart.trans (List.prefix_append _ _))
    have hall := h (ts ++ [t]) List.prefix_rfl
    have hopen : openings [] = 0 := rfl
    have hclose : closings [] = 0 := rfl
    rw [openings_append, closings_append, openings_cons, closings_cons] at hall
    rw [nesting_concat, nestingAfter, openings_append, closings_append, openings_cons, closings_cons]
    cases hk : t.kind with
    | opening =>
      simp only [reduceCtorEq, if_true, if_false]
      omega
    | closing =>
      simp only [hk, reduceCtorEq, if_true, if_false] at hall ⊢
      omega
    | _ =>
      simp only [reduceCtorEq, if_false]
      omega

/-! ### Looking ahead no further than to the closing bracket -/

lemma judgeFrom_append {limit : Int} {p : Option Token} {length : Nat} {depth : Int} {ts : List Token}
    (hdepth : 0 < depth) (h : depth + openings ts ≤ closings ts) (more : List Token) :
    judgeFrom limit p length depth (ts ++ more) = judgeFrom limit p length depth ts := by
  induction ts generalizing p length depth with
  | nil =>
    have hnone : depth + 0 ≤ 0 := h
    omega
  | cons t ts ih =>
    rw [openings_cons, closings_cons] at h
    by_cases hb : t.kind = .blank
    · simp only [hb, reduceCtorEq, if_false] at h
      rw [List.cons_append, judgeFrom_blank hb, judgeFrom_blank hb]
      apply ih hdepth
      omega
    rw [List.cons_append, judgeFrom_cons hb, judgeFrom_cons hb]
    by_cases hlast : t.kind = .closing ∧ depthAfter depth t = 0
    · simp only [hlast, and_self, if_true]
    have hnext : 0 < depthAfter depth t ∧ depthAfter depth t + openings ts ≤ closings ts := by
      unfold depthAfter at hlast ⊢
      cases hk : t.kind with
      | opening =>
        simp only [hk, reduceCtorEq, if_true, if_false] at h ⊢
        omega
      | closing =>
        simp only [hk, reduceCtorEq, if_true, if_false, true_and] at h hlast ⊢
        omega
      | _ =>
        simp only [hk, reduceCtorEq, if_false] at h ⊢
        omega
    rw [ih hnext.1 hnext.2]

lemma judge_append {limit : Int} {t : Token} {ts : List Token} (ht : t.kind = .opening)
    (h : openings (t :: ts) ≤ closings (t :: ts)) (more : List Token) :
    judge limit (t :: (ts ++ more)) = judge limit (t :: ts) := by
  have hdepth : depthAfter 0 t = 1 := by simp [depthAfter, ht]
  rw [openings_cons, closings_cons] at h
  simp only [ht, reduceCtorEq, if_true, if_false] at h
  rw [judge, judge, judgeFrom_cons (by simp [ht]), judgeFrom_cons (by simp [ht]), hdepth,
    judgeFrom_append (by omega) (by omega)]

lemma forall₂_solid_map_behind (p : Position) (ts : List Token) :
    List.Forall₂ Token.Same (solid (ts.map (Token.behind p))) (solid ts) := by
  induction ts with
  | nil => exact .nil
  | cons t ts ih =>
    rw [List.map_cons]
    by_cases hb : t.kind = .blank
    · rw [solid_cons_of_blank hb, solid_cons_of_blank (t := t.behind p) hb]
      exact ih
    · rw [solid_cons_of_solid hb, solid_cons_of_solid (t := t.behind p) hb]
      exact .cons ⟨rfl, rfl, rfl⟩ ih

namespace Draft

section

variable {o : Options} {s : Draft} {t : Token} {ts : List Token}

lemma after_append (h : openings (t :: ts) ≤ closings (t :: ts)) (index : Nat) (more : List Token) :
    s.after o index t (ts ++ more) = s.after o index t ts := by
  unfold after placed
  cases hk : t.kind with
  | opening =>
    dsimp only
    rw [opening_eq, opening_eq, judge_append hk h]
  | _ => rfl

lemma run_append (hbind : o.bindings = .none) (hts : ∀ t ∈ ts, t.Proper)
    (h : ∀ rest, rest <:+ ts → openings rest ≤ closings rest) (more : List Token) (index : Nat) :
    s.run o index (ts ++ more) = (s.run o index ts).1.run o (index + ts.length) more := by
  induction ts generalizing s index with
  | nil => rfl
  | cons t ts ih =>
    obtain ⟨ht, hts⟩ := List.forall_mem_cons.mp hts
    rw [List.cons_append, run_cons hbind ht, run_cons hbind ht, after_append (h _ List.suffix_rfl),
      ih hts fun rest hrest => h rest (hrest.trans (List.suffix_cons t ts)), List.length_cons]
    congr 1
    omega

lemma after_map_behind (p : Position) (index : Nat) :
    s.after o index (t.behind p) (ts.map (Token.behind p)) = s.after o index t ts := by
  have hjudge : judge o.inlineLimit (t.behind p :: ts.map (Token.behind p)) = judge o.inlineLimit (t :: ts) :=
    judge_of_same (forall₂_solid_map_behind p (t :: ts))
  have hkind : (t.behind p).kind = t.kind := rfl
  unfold after placed
  rw [hkind]
  cases hk : t.kind with
  | opening =>
    dsimp only
    rw [opening_eq, opening_eq, hjudge]
    rfl
  | _ => rfl

lemma run_map_behind (hbind : o.bindings = .none) (hts : ∀ t ∈ ts, t.Proper) (p : Position) (index : Nat) :
    s.run o index (ts.map (Token.behind p)) = s.run o index ts := by
  induction ts generalizing s index with
  | nil => rfl
  | cons t ts ih =>
    obtain ⟨ht, hts⟩ := List.forall_mem_cons.mp hts
    rw [List.map_cons, run_cons hbind ht, run_cons (t := t.behind p) hbind ht, after_map_behind]
    exact ih hts (index + 1)

end

/-! ### What a statement leaves -/

def continuationAfter (d : Dialect) (n : Nat) (t : Token) : Nat :=
  match t.kind with
  | .keyword .clause => n - 1
  | .keyword .breaking => if isJoin d t.text then n - 1 else n
  | .keyword .indented => n + 1
  | _ => n

/-- A draft without a page that is at the levels where the tokens of a statement leave it, and in the
clause in which they leave it. -/
def left (d : Dialect) (ts : List Token) : Draft where
  levels :=
    { clause := if ts.any (·.kind = .keyword .clause) then 1 else 0
      continuation := ts.foldl (continuationAfter d) 0 }
  inLimit := ts.foldl limitAfter false

section

variable {o : Options} {s s' : Draft} {index : Nat} {t : Token} {ts : List Token}

lemma continuation_of_step (h : s.step o index t ts = .ok s') :
    s'.levels.continuation = continuationAfter o.dialect s.levels.continuation t := by
  obtain ⟨n, hlevels, -⟩ := levels_of_step h
  rw [hlevels]
  unfold Levels.behind continuationAfter
  cases hk : t.kind with
  | keyword role =>
    cases role with
    | clause | indented | plain => rfl
    | breaking =>
      dsimp only
      split <;> rfl
  | opening | closing =>
    dsimp only
    split <;> rfl
  | _ => rfl

lemma inLimit_of_step (h : s.step o index t ts = .ok s') : s'.inLimit = limitAfter s.inLimit t := by
  obtain ⟨c, used, -, rfl⟩ := exists_placed_of_step h
  exact congrArg (·.2.2.2) (frame_placed o s index t ts c used)

lemma run_leaves (hrun : (s.run o index ts).2 = none) :
    (s.run o index ts).1.levels.continuation =
        ts.foldl (continuationAfter o.dialect) s.levels.continuation ∧
      (s.run o index ts).1.inLimit = ts.foldl limitAfter s.inLimit := by
  induction ts generalizing s index with
  | nil => exact ⟨rfl, rfl⟩
  | cons t ts ih =>
    cases hstep : s.step o index t ts with
    | error e => simp [run, hstep] at hrun
    | ok s' =>
      rw [run, hstep] at hrun ⊢
      rw [List.foldl_cons, List.foldl_cons, ← continuation_of_step hstep, ← inLimit_of_step hstep]
      exact ih hrun

end

/-- Behind a statement whose brackets are balanced and that does not end in a comma, a draft is at the
levels that the statement leaves, and nothing is open or held back. -/
lemma run_eq_left {o : Options} (hwrap : o.maxLineLength = 0) {ts : List Token} (hbalanced : Balanced ts)
    (hlast : ∀ t ∈ lastInked? ts, t.isComma = false) (hrun : (run o {} 0 ts).2 = none) :
    (run o {} 0 ts).1.levels = (left o.dialect ts).levels ∧ (run o {} 0 ts).1.inlineDepth = 0 ∧
      (run o {} 0 ts).1.held = [] ∧ (run o {} 0 ts).1.inLimit = (left o.dialect ts).inLimit := by
  have haccounts := (Accounts.start o).run hrun
  obtain ⟨hcontinuation, hlimit⟩ := run_leaves hrun
  rw [List.nil_append] at haccounts
  generalize (run o {} 0 ts).1 = s at *
  have hopen := haccounts.block
  have hnesting := nesting_of_nested hbalanced.nested
  have hsettled := hbalanced.settled
  refine ⟨?_, by omega, ?_, hlimit⟩
  · have hclause := haccounts.clause
    have hblock : s.levels.block = 0 := by omega
    have hoverflow := haccounts.overflow (.inl hwrap)
    obtain ⟨page, ⟨clause, block, continuation, overflow⟩, rest⟩ := s
    dsimp only at hclause hblock hcontinuation hoverflow
    rw [left, hclause, hblock, hcontinuation, hoverflow]
  · by_contra hne
    have hcomma := (haccounts.held hne).2.2.1
    cases hl : lastInked? ts with
    | none => simp [hl] at hcomma
    | some t => simp [hl, hlast t hl] at hcomma

/-! ### Behind a separator -/

lemma Abreast.text_append {lead lead' : Text} {s u : Draft} (h : Abreast lead lead' s u)
    (hlead : lead'.isAllBlank = true) : s.text = lead.trimStart ++ u.text := by
  obtain ⟨x, hne, hx, hs, hu⟩ := h.page
  have hkept := Text.trimEnd_ne_nil hx hne
  have hstart : ∀ b : Text, b.isAllBlank = true → Text.trimStart (b ++ x.trimEnd) = x.trimEnd := by
    intro b hb
    exact Text.trimStart_blank_append hb (Text.startsBlank_trimEnd hx hne)
  have hbody : u.text = x.trimEnd := by
    rw [text_eq, body, hu, Text.trimEnd_append_of_trimEnd_ne_nil hkept, hstart _ hlead]
  rw [hbody, text_eq, body, hs, Text.trimEnd_append_of_trimEnd_ne_nil hkept, Text.trimStart_append]
  split
  · next hnil =>
    rw [hnil]
    exact hstart [] rfl
  · rfl

section

variable {o : Options} {s : Draft} {ts us : List Token}

lemma proper_separatorToken (p q : Position) : (separatorToken p q).Proper :=
  ⟨by simp [separatorToken], rfl, rfl⟩

lemma after_separatorToken (hheld : s.held = []) (p q : Position) (index : Nat) (rest : List Token) :
    s.after o index (separatorToken p q) rest = { s.separator [';'] with previous := some .operator } := by
  have hfree : { s with held := [] } = s := by rw [← hheld]
  have hplaced : s.placed o index (separatorToken p q) rest [';'] s.used =
      operator o { s with held := [] } [';'] (s.held ++ [';']) := rfl
  rw [after]
  change { s.placed o index (separatorToken p q) rest [';'] s.used with previous := some .operator } = _
  rw [hplaced, hfree, hheld]
  rfl

lemma abreast_separator (hlevels : s.levels = (left o.dialect ts).levels) (hdepth : s.inlineDepth = 0)
    (hheld : s.held = []) (hlimit : s.inLimit = (left o.dialect ts).inLimit) (p q : Position) (index : Nat)
    (rest : List Token) :
    Abreast s.body [] (s.after o index (separatorToken p q) rest)
      ((left o.dialect ts).separator [';']) := by
  rw [after_separatorToken hheld]
  exact {
    page := ⟨[';', '\n', '\n'], by simp, rfl, text_separator s [';'], text_separator _ [';']⟩
    levels := hlevels
    inlineDepth := hdepth
    held := hheld
    inLimit := hlimit
    bracket := by simp [separator, writeTight, write, Draft.trimEnd, left]
    separated := rfl }

/-- Two statements are laid out one behind another, the second one from what the first one leaves. -/
lemma text_run_statements (hwrap : o.maxLineLength = 0) (hbind : o.bindings = .none)
    (hts : ∀ t ∈ ts, t.Proper) (hus : ∀ t ∈ us, t.Proper) (hbalanced : Balanced ts)
    (hlast : ∀ t ∈ lastInked? ts, t.isComma = false) (p q r : Position) :
    (run o {} 0 (ts ++ separatorToken p q :: us.map (Token.behind r))).1.text =
      (run o {} 0 ts).1.text ++ (((left o.dialect ts).separator [';']).run o 0 us).1.text := by
  obtain ⟨hlevels, hdepth, hheld, hlimit⟩ :=
    run_eq_left hwrap hbalanced hlast (run_succeeds (s := {}) hbind hts 0)
  rw [run_append hbind hts (fun _ => hbalanced.closes), run_cons hbind (proper_separatorToken p q),
    run_map_behind hbind hus, text_eq (run o {} 0 ts).1]
  apply Abreast.text_append
  · apply Abreast.run hwrap hbind hus
    exact abreast_separator hlevels hdepth hheld hlimit p q _ _
  · rfl

end

/-! ### The first token behind a separator -/

/-- A draft that holds nothing but a separator, at no level. -/
structure AtSeparator (s : Draft) : Prop where
  page : s.page.text = [';', '\n', '\n']
  separated : s.separated = true
  levels : s.levels = {}
  held : s.held = []

/-- A draft with an empty page in place of its own. -/
def cleared (s : Draft) : Draft :=
  { s with page := .empty, separated := false }

namespace AtSeparator

variable {o : Options} {s : Draft} (h : AtSeparator s)
include h

lemma relevel {f : Levels → Levels} (hf : f {} = {}) : AtSeparator (s.relevel f) :=
  { h with levels := by rw [Draft.relevel, h.levels, hf] }

lemma write {t : Text} (ht : t ≠ []) (hb : t.startsBlank = false) :
    Abreast [';', '\n', '\n'] [] (s.write t) (s.cleared.write t) where
  page := ⟨t, ht, hb, (Page.text_append _ _).trans (by rw [h.page]), Page.text_append _ _⟩
  levels := rfl
  inlineDepth := rfl
  held := rfl
  inLimit := rfl
  bracket := .rfl
  separated := rfl

lemma newLine (unit : Text) {t : Text} (ht : t ≠ []) (hb : t.startsBlank = false) :
    Abreast [';', '\n', '\n'] ['\n'] ((s.newLine unit).write t) ((s.cleared.newLine unit).write t) where
  page := by
    have hs : (s.newLine unit).page.text = [';', '\n', '\n'] := by
      rw [text_newLine, h.levels, h.separated, body, h.page]
      rfl
    have hu : (s.cleared.newLine unit).page.text = ['\n'] := by
      rw [text_newLine, show s.cleared.levels = {} from h.levels]
      rfl
    exact ⟨t, ht, hb, (Page.text_append _ _).trans (by rw [hs]), (Page.text_append _ _).trans (by rw [hu])⟩
  levels := rfl
  inlineDepth := rfl
  held := rfl
  inLimit := rfl
  bracket := .rfl
  separated := rfl

lemma writeWrapped (hwrap : o.maxLineLength = 0) {t : Text} (ht : t.Solid) :
    Abreast [';', '\n', '\n'] [] (s.writeWrapped o t) (s.cleared.writeWrapped o t) := by
  simp only [Draft.writeWrapped, wrapBefore, hwrap, ne_eq, not_true_eq_false, false_and, if_false]
  apply h.write
  · simp [ht.ne_nil]
  · rw [Text.startsBlank_append ht.ne_nil, ht.head]

lemma keyword (hwrap : o.maxLineLength = 0) {role : Role} (hrole : role ≠ .indented) (own : Text) {t : Text}
    (ht : (Text.collapse t).Solid) : ∃ lead : Text, lead.isAllBlank = true ∧
      Abreast [';', '\n', '\n'] lead (s.keyword o role own t) (s.cleared.keyword o role own t) := by
  have hdrop : AtSeparator s.dropOverflow := h.relevel rfl
  have hout : AtSeparator (s.dropOverflow.outdent .continuation) := hdrop.relevel rfl
  cases role with
  | indented => exact absurd rfl hrole
  | plain => exact ⟨[], rfl, h.writeWrapped hwrap ht⟩
  | clause =>
    have hline := (hout.relevel (f := (·.decrease .clause)) rfl).newLine o.unit ht.ne_nil ht.head
    exact ⟨['\n'], rfl, (hline.relevel (·.increase .clause)).newLine o.unit⟩
  | breaking =>
    have hne : Text.collapse t ++ [' '] ≠ [] := by simp
    have hhead : Text.startsBlank (Text.collapse t ++ [' ']) = false := by
      rw [Text.startsBlank_append ht.ne_nil, ht.head]
    refine ⟨['\n'], rfl, ?_⟩
    rw [Draft.keyword, Draft.keyword, breakingKeyword, breakingKeyword]
    split
    · exact hout.newLine o.unit hne hhead
    · exact hdrop.newLine o.unit hne hhead

lemma after (hwrap : o.maxLineLength = 0) {t : Token} (ht : t.Proper)
    (hword : t.kind = .word ∨ ∃ role, role ≠ .indented ∧ t.kind = .keyword role) (index j : Nat)
    (rest : List Token) : ∃ lead : Text, lead.isAllBlank = true ∧
      Abreast [';', '\n', '\n'] lead (s.after o index t rest) (s.cleared.after o j t rest) := by
  have hfree : AtSeparator { s with held := [] } := { h with held := rfl }
  have hheld : s.cleared.held = s.held := rfl
  unfold Draft.after placed
  dsimp only
  rw [hheld, h.held, List.nil_append]
  rcases hword with hk | ⟨role, hrole, hk⟩
  · have hsolid : t.text.Solid := by simpa [Token.Proper, hk] using ht
    have hset := hfree.writeWrapped hwrap hsolid
    rw [hk]
    exact ⟨[], rfl, { hset with bracket := .rfl }⟩
  · have hsolid : t.text.Solid := by simpa [Token.Proper, hk] using ht
    obtain ⟨lead, hlead, hset⟩ := hfree.keyword hwrap hrole t.text hsolid.collapse
    rw [hk]
    exact ⟨lead, hlead, { hset with inLimit := rfl, bracket := .rfl }⟩

lemma run (hwrap : o.maxLineLength = 0) (hbind : o.bindings = .none) {ts : List Token}
    (hts : ∀ t ∈ ts, t.Proper) {t : Token} (hfirst : (solid ts).head? = some t)
    (hword : t.kind = .word ∨ ∃ role, role ≠ .indented ∧ t.kind = .keyword role) (index j : Nat) :
    ∃ lead : Text, lead.isAllBlank = true ∧
      Abreast [';', '\n', '\n'] lead (s.run o index ts).1 (s.cleared.run o j ts).1 := by
  induction ts generalizing s index j with
  | nil => simp [solid] at hfirst
  | cons u ts ih =>
    obtain ⟨hu, hts⟩ := List.forall_mem_cons.mp hts
    rw [run_cons hbind hu, run_cons hbind hu]
    by_cases hb : u.kind = .blank
    · rw [solid_cons_of_blank hb] at hfirst
      rw [after_blank hb, after_blank hb]
      have hblank : AtSeparator { s with previous := some .blank } := { h with }
      exact ih hblank hts hfirst (index + 1) (j + 1)
    · rw [solid_cons_of_solid hb, List.head?_cons, Option.some.injEq] at hfirst
      subst hfirst
      obtain ⟨lead, hlead, hset⟩ := h.after hwrap hu hword index j ts
      exact ⟨lead, hlead, hset.run hwrap hbind hts (index + 1) (j + 1)⟩

end AtSeparator

lemma text_run_separator {o : Options} (hwrap : o.maxLineLength = 0) (hbind : o.bindings = .none)
    {ts us : List Token} (hus : ∀ t ∈ us, t.Proper) {t : Token} (hfirst : (solid us).head? = some t)
    (hword : t.kind = .word ∨ ∃ role, role ≠ .indented ∧ t.kind = .keyword role)
    (hlevels : left o.dialect ts = {} ∨
      ∀ u ∈ firstBreak o.inlineLimit 0 us, (left o.dialect ts).levels.endAt o.dialect u = true) :
    (((left o.dialect ts).separator [';']).run o 0 us).1.text =
      [';', '\n', '\n'] ++ (run o {} 0 us).1.text := by
  have hpage : (((left o.dialect ts).separator [';']).run o 0 us).1.page =
      ((separator {} [';']).run o 0 us).1.page := by
    rcases hlevels with hnone | hends
    · rw [hnone]
    · exact page_run_moved (s := separator {} [';']) hwrap hbind rfl rfl rfl hus hends _ 0
  have hseparator : AtSeparator (separator {} [';']) := ⟨rfl, rfl, rfl, rfl⟩
  obtain ⟨lead, hlead, habreast⟩ := hseparator.run hwrap hbind hus hfirst hword 0 0
  rw [text, hpage]
  exact habreast.text_append hlead

end Draft

/-! ### The last token of a statement -/

lemma getLast?_solid {ts : List Token} {t : Token} (h : ts.getLast? = some t) (hb : t.kind ≠ .blank) :
    (solid ts).getLast? = some t := by
  obtain ⟨front, rfl⟩ := List.getLast?_eq_some_iff.mp h
  simp [solid, hb]

lemma lastInked?_of_solid {ts : List Token}
    (h : ∀ t ∈ (solid ts).getLast?, t.kind.isComment = false) : lastInked? ts = (solid ts).getLast? := by
  have hinked : lastInked? ts = ((solid ts).filter fun t => !t.kind.isComment).getLast? := by
    rw [lastInked?, solid, List.filter_filter]
    simp only [Bool.and_comm]
  rw [hinked]
  rcases List.eq_nil_or_concat (solid ts) with hnil | ⟨front, t, hts⟩
  · rw [hnil]
    rfl
  · have ht : t.kind.isComment = false := h t (by rw [hts]; simp)
    rw [hts]
    simp [ht]

/-! ### A clause keyword and a letter -/

lemma keyword?_of_clause {ctx : Context} (hdot : ctx.afterDot = false) {p t : Text} {n : Nat}
    (hp : p ∈ Dialect.standard.clauses) (hsize : phraseSize? p.words t = some n)
    (honly : ∀ q ∈ Dialect.standard.clauses, ∀ m ∈ phraseSize? q.words t, m = n) :
    keyword? Dialect.standard.lexicon ctx t = some { kind := .keyword .clause, size := n } := by
  have hphrases : Dialect.standard.lexicon.phrases = Dialect.standard.orderedPhrases .clause ++
      [Role.indented, .breaking, .plain].flatMap Dialect.standard.orderedPhrases := rfl
  have hmem : (Role.clause, p.words) ∈ Dialect.standard.orderedPhrases .clause :=
    List.mem_map.mpr ⟨p, mem_byLength.mpr hp, rfl⟩
  rw [keyword?, if_neg (by simp [hdot]), hphrases, List.findSome?_append]
  generalize hfound : (Dialect.standard.orderedPhrases .clause).findSome? _ = found
  cases found with
  | none =>
    have hnone := List.findSome?_eq_none_iff.mp hfound _ hmem
    simp [hsize] at hnone
  | some l =>
    obtain ⟨⟨role, ws⟩, hws, hl⟩ := List.exists_of_findSome?_eq_some hfound
    obtain ⟨q, hq, heq⟩ := List.mem_map.mp hws
    obtain ⟨rfl, rfl⟩ := Prod.mk.inj heq
    obtain ⟨m, hm, rfl⟩ := Option.map_eq_some_iff.mp hl
    rw [honly q (mem_byLength.mp hq) m hm]
    rfl

lemma keyword?_eq_none_of_single {ctx : Context} (c : Char) {r : Text} (hr : r.startsWord = false) :
    keyword? Dialect.standard.lexicon ctx (c :: r) = none := by
  rw [keyword?]
  split
  · rfl
  · rw [List.findSome?_eq_none_iff]
    rintro ⟨role, ws⟩ hws
    rw [Option.map_eq_none_iff]
    by_contra hne
    obtain ⟨n, hn⟩ := Option.ne_none_iff_exists'.mp hne
    have hlength := (wordsSize?_bounds (ne_nil_of_mem_lexicon_phrases hws)
      (Option.filter_eq_some_iff.mp hn).1).2
    have hsplit := List.take_append_drop n (c :: r)
    obtain ⟨b, d, y, hx, -, hd, -⟩ := keyword_head (x := (c :: r).take n) (s := (c :: r).drop n) hws
      (by rw [hsplit, hn, List.length_take_of_le hlength])
    rw [hx, List.cons_append, List.cons_append, List.cons.injEq] at hsplit
    rw [← hsplit.2] at hr
    exact absurd hd (by simpa [Text.startsWord] using hr)

lemma lexeme_go {ctx : Context} (hdot : ctx.afterDot = false) :
    lexeme Dialect.standard.lexicon ctx ['G', 'O'] = .ok { kind := .keyword .clause, size := 2 } := by
  have hkeyword : keyword? Dialect.standard.lexicon ctx ['G', 'O'] =
      some { kind := .keyword .clause, size := 2 } :=
    keyword?_of_clause hdot (p := ['G', 'O']) (by decide) (by decide) (by decide +kernel)
  have hplain : plain Dialect.standard.lexicon ctx (['G', 'O'] ++ []) = _ :=
    plain_of_startsWord (by decide) (by decide)
  rw [List.append_nil, hkeyword] at hplain
  rw [lexeme_of_startsPlain (startsPlain_of_word (by decide) (by decide) []), hplain]
  rfl

lemma lexeme_x {ctx : Context} {r : Text} (hr : r.startsWord = false)
    (hplain : startsPlain ('x' :: r) = true) (hnumber : numberSize? ('x' :: r) = none) :
    lexeme Dialect.standard.lexicon ctx ('x' :: r) = .ok { kind := .word, size := 1 } := by
  have htake : (['x'] ++ r).takeWhile Text.isWordChar = ['x'] :=
    Text.takeWhile_of_word (List.all_iff_forall_prop.mp (by decide)) hr
  have hkind : wordKind ctx.afterDot ['x'] = .word := by cases ctx.afterDot <;> decide
  have hrule : plain Dialect.standard.lexicon ctx (['x'] ++ r) = _ := plain_of_startsWord (by decide) hnumber
  rw [htake, hkind, List.singleton_append, keyword?_eq_none_of_single 'x' hr] at hrule
  rw [lexeme_of_startsPlain hplain, hrule]
  rfl

/-! ### Formatting -/

open Draft

lemma format_eq_ok {query : Text} {ts : List Token} (hts : tokenize .standard query = .ok ts)
    (hproper : ∀ t ∈ ts, t.Proper) :
    format Dialect.standard.name {} query = .ok (run {} {} 0 ts).1.text := by
  have hrun := run_succeeds (o := {}) (s := {}) rfl hproper 0
  have hlayout : layout {} ts = .ok (run {} {} 0 ts).1.text := by
    rw [layout]
    generalize run {} {} 0 ts = r at hrun ⊢
    obtain ⟨s, fault⟩ := r
    obtain rfl : fault = none := hrun
    rfl
  exact formatWith_eq_ok (o := {}) hts hlayout

lemma format_separator {a b : Text} {ts us : List Token} (ha : tokenize .standard a = .ok ts)
    (hb : tokenize .standard b = .ok us) (hbalanced : Balanced ts)
    (hlast : ∀ t ∈ (solid ts).getLast?, t.isComma = false ∧ t.kind.isComment = false) :
    format Dialect.standard.name {} (a ++ ';' :: b) =
      .ok ((run {} {} 0 ts).1.text ++ (((left .standard ts).separator [';']).run {} 0 us).1.text) := by
  have hts := ((tokensFrom_eq_ok_iff Dialect.standard_substantial).mp ha).proper
  have hus := ((tokensFrom_eq_ok_iff Dialect.standard_substantial).mp hb).proper
  have hline : ∀ t ∈ ts.getLast?, t.kind = .lineComment → t.text.endsLine = true := by
    intro t ht hk
    have hcomment := (hlast t (getLast?_solid ht (by simp [hk]))).2
    simp [hk, Kind.isComment] at hcomment
  have hcomma : ∀ t ∈ lastInked? ts, t.isComma = false := by
    rw [lastInked?_of_solid fun t ht => (hlast t ht).2]
    exact fun t ht => (hlast t ht).1
  have hjoined := tokenize_separator ha hline hb
  have hproper := ((tokensFrom_eq_ok_iff Dialect.standard_substantial).mp hjoined).proper
  rw [format_eq_ok hjoined hproper, text_run_statements (o := {}) rfl rfl hts hus hbalanced hcomma]

/-- Two statements with a separator between them. If the brackets of the first one are balanced and it
ends in neither a comma nor a comment, it is laid out as if it stood alone, and the second one is laid
out from the levels that the first one leaves. These do not show if there are none, or if the first
token of the second statement that starts a line ends them: then the second statement, too, is laid
out as if it stood alone, unless it begins with an indented keyword. -/
theorem format_append_separator (a b : Text) (ts us : List Token) (ha : tokenize .standard a = .ok ts)
    (hb : tokenize .standard b = .ok us) (hbalanced : Balanced ts)
    (hlast : ∀ t ∈ (solid ts).getLast?, t.isComma = false ∧ t.kind.isComment = false) :
    ∃ fa fb, format Dialect.standard.name {} a = .ok fa ∧ format Dialect.standard.name {} b = .ok fb ∧
      format Dialect.standard.name {} (a ++ ';' :: b) =
        .ok (fa ++ (((left .standard ts).separator [';']).run {} 0 us).1.text) ∧
      ∀ t, (solid us).head? = some t → (t.kind = .word ∨ ∃ role, role ≠ .indented ∧ t.kind = .keyword role) →
        (left .standard ts = {} ∨
          ∀ u ∈ firstBreak defaultLimit 0 us, (left .standard ts).levels.endAt .standard u = true) →
        format Dialect.standard.name {} (a ++ ';' :: b) = .ok (fa ++ [';', '\n', '\n'] ++ fb) := by
  have hts := ((tokensFrom_eq_ok_iff Dialect.standard_substantial).mp ha).proper
  have hus := ((tokensFrom_eq_ok_iff Dialect.standard_substantial).mp hb).proper
  have hformat := format_separator ha hb hbalanced hlast
  refine ⟨_, _, format_eq_ok ha hts, format_eq_ok hb hus, hformat, fun t hfirst hword hlevels => ?_⟩
  rw [hformat, List.append_assoc, text_run_separator rfl rfl hus hfirst hword hlevels]

theorem format_append_separator_of_clauses :
    ∃ ts us t fa fb, tokenize .standard "(1) GO".toList = .ok ts ∧ tokenize .standard "x GO".toList = .ok us ∧
      Balanced ts ∧ left .standard ts ≠ {} ∧ (solid us).head? = some t ∧ t.kind = .word ∧
      format Dialect.standard.name {} "(1) GO".toList = .ok fa ∧
      format Dialect.standard.name {} "x GO".toList = .ok fb ∧
      format Dialect.standard.name {} "(1) GO;x GO".toList = .ok (fa ++ [';', '\n', '\n'] ++ fb) := by
  have ha : Reads Dialect.standard.lexicon .start .start
      (['('] ++ (['1'] ++ ([')'] ++ ([' '] ++ (['G', 'O'] ++ []))))) _ :=
    .cons rfl rfl (by simp) (.cons rfl rfl (by simp) (.cons rfl rfl (by simp) (.cons rfl rfl (by simp)
      (.cons (lexeme_go rfl) rfl (by simp) (.nil _ _)))))
  have hb : Reads Dialect.standard.lexicon .start .start (['x'] ++ ([' '] ++ (['G', 'O'] ++ []))) _ :=
    .cons (lexeme_x (by decide) (by decide) (by decide)) rfl (by simp) (.cons rfl rfl (by simp)
      (.cons (lexeme_go rfl) rfl (by simp) (.nil _ _)))
  have ha' := tokensFrom_of_reads ha
  have hb' := tokensFrom_of_reads hb
  obtain ⟨fa, fb, hfa, hfb, -, hformat⟩ := format_append_separator _ _ _ _ ha' hb' (by decide) (by decide)
  exact ⟨_, _, _, fa, fb, ha', hb', by decide, by decide, rfl, rfl, hfa, hfb,
    hformat _ rfl (.inl rfl) (.inr (by decide))⟩

/-- A clause that the first statement opens indents the lines of the second one. -/
theorem format_indents_next_statement : ¬∀ (a b : Text) (ts us : List Token) (t : Token),
    tokenize .standard a = .ok ts → tokenize .standard b = .ok us → Balanced ts →
    (∀ t ∈ (solid ts).getLast?, t.isComma = false ∧ t.kind.isComment = false) →
    (solid us).head? = some t → (t.kind = .word ∨ ∃ role, t.kind = .keyword role) →
    ∃ fa fb, format Dialect.standard.name {} a = .ok fa ∧ format Dialect.standard.name {} b = .ok fb ∧
      format Dialect.standard.name {} (a ++ ';' :: b) = .ok (fa ++ [';', '\n', '\n'] ++ fb) := by
  intro h
  have ha : Reads Dialect.standard.lexicon .start .start (['G', 'O'] ++ []) _ :=
    .cons (lexeme_go rfl) rfl (by simp) (.nil _ _)
  have hb : Reads Dialect.standard.lexicon .start .start (['x'] ++ ([','] ++ (['1'] ++ []))) _ :=
    .cons (lexeme_x (by decide) (by decide) (by decide)) rfl (by simp)
      (.cons (lexeme_comma _ _) rfl (by simp) (.cons rfl rfl (by simp) (.nil _ _)))
  have ha' := tokensFrom_of_reads ha
  have hb' := tokensFrom_of_reads hb
  obtain ⟨fa, fb, hfa, hfb, hformat⟩ := h _ _ _ _ _ ha' hb' (by decide) (by decide) rfl (.inl rfl)
  have hjoined := format_separator ha' hb' (by decide) (by decide)
  rw [format_eq_ok ha' ha.proper, Except.ok.injEq] at hfa
  rw [format_eq_ok hb' hb.proper, Except.ok.injEq] at hfb
  rw [hformat, Except.ok.injEq, ← hfa, ← hfb] at hjoined
  exact absurd hjoined (by decide)

end SqlLayout
