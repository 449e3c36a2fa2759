import SqlLayout.Proofs.Pieces

/-!
# Stray tokens

A token that no query can hold stops the layout, and nothing else does but a placeholder without a text.
The error names the first such token, whatever the tokens before it have left behind. A token that was
read from a text is never stray, in no dialect: a block comment reaches from its start to an end behind
it, and the lexer knows every kind that it gives.
-/

namespace SqlLayout

open Lexeme

/-- A token that no query can hold: its kind is unknown, or it is a block comment without its start, its
end or room for both. -/
def Token.IsStray (t : Token) : Prop :=
  (∃ name, t.kind = .unclassified name) ∨
    t.kind = .blockComment ∧ (t.text.length < 4 ∨ ¬['/', '*'] <+: t.text ∨ ¬['*', '/'] <:+ t.text)

def Token.fault (t : Token) : TokenFault :=
  match t.kind with
  | .unclassified name => .unclassified name
  | _ => .unclosedComment

lemma Token.isSound_iff {t : Token} : t.isSound = true ↔ ¬t.IsStray := by
  rw [isSound, IsStray]
  cases hk : t.kind with
  | blockComment =>
    simp [Comment.isClosed, List.isPrefixOf_iff_prefix, List.isSuffixOf_iff_suffix, and_assoc]
  | _ => simp

lemma Token.not_isSound_iff {t : Token} : t.isSound = false ↔ t.IsStray := by
  rw [← Bool.not_eq_true, isSound_iff, not_not]

/-! ### Where a run stops -/

namespace Draft

variable {o : Options} {s : Draft} {t : Token} {index : Nat} {rest : List Token}

lemma step_of_not_isSound (h : t.isSound = false) (index : Nat) (rest : List Token) :
    s.step o index t rest = .error (.badToken t.fault t index) := by
  rw [Token.isSound] at h
  rw [step, place, Token.fault]
  cases hk : t.kind <;> simp_all

lemma step_of_isSound (h : t.isSound = true) (index : Nat) (rest : List Token) :
    (∃ s', s.step o index t rest = .ok s') ∨
      ∃ fault, s.step o index t rest = .error (.unresolved fault) := by
  cases hc : t.chunk o s.used with
  | ok r => exact .inl ⟨_, step_eq_ok h hc index rest⟩
  | error fault => exact .inr ⟨fault, step_eq_error hc index rest⟩

/-- A run goes through to its end, stops at a placeholder, or stops at the first stray token. -/
lemma run_cases (o : Options) (s : Draft) (index : Nat) (ts : List Token) :
    (∃ s', s.run o index ts = (s', none) ∧ ∀ t ∈ ts, t.isSound = true) ∨
    (∃ s' fault, s.run o index ts = (s', some (.unresolved fault))) ∨
    ∃ s' front t rest, ts = front ++ t :: rest ∧ (∀ u ∈ front, u.isSound = true) ∧ t.isSound = false ∧
      s.run o index ts = (s', some (.badToken t.fault t (index + front.length))) := by
  induction ts generalizing s index with
  | nil => exact .inl ⟨s, rfl, by simp⟩
  | cons t ts ih =>
    cases ht : t.isSound with
    | false =>
      refine .inr (.inr ⟨s, [], t, ts, rfl, by simp, ht, ?_⟩)
      rw [run, step_of_not_isSound ht]
      rfl
    | true =>
      rcases step_of_isSound (o := o) (s := s) ht index ts with ⟨s₁, hstep⟩ | ⟨fault, hstep⟩
      · have hrun : s.run o index (t :: ts) = s₁.run o (index + 1) ts := by rw [run, hstep]
        rw [hrun]
        rcases ih s₁ (index + 1) with ⟨s', h, hall⟩ | h | ⟨s', front, u, rest, rfl, hfront, hu, h⟩
        · exact .inl ⟨s', h, List.forall_mem_cons.mpr ⟨ht, hall⟩⟩
        · exact .inr (.inl h)
        · refine .inr (.inr ⟨s', t :: front, u, rest, rfl, List.forall_mem_cons.mpr ⟨ht, hfront⟩, hu, ?_⟩)
          rw [h, List.length_cons, Nat.add_right_comm, Nat.add_assoc]
      · exact .inr (.inl ⟨s, fault, by rw [run, hstep]⟩)

end Draft

/-- A place is that of the first stray token of a sequence. -/
def FirstStray (ts : List Token) (i : Nat) (t : Token) : Prop :=
  ts[i]? = some t ∧ t.IsStray ∧ ∀ j < i, ∀ u ∈ ts[j]?, ¬u.IsStray

lemma FirstStray.unique {ts : List Token} {i j : Nat} {t u : Token} (h : FirstStray ts i t)
    (h' : FirstStray ts j u) : i = j ∧ t = u := by
  have hij : i = j := by
    rcases Nat.lt_trichotomy i j with hlt | heq | hlt
    · exact absurd h.2.1 (h'.2.2 i hlt t h.1)
    · exact heq
    · exact absurd h'.2.1 (h.2.2 j hlt u h'.1)
  subst hij
  exact ⟨rfl, Option.some.inj (h.1.symm.trans h'.1)⟩

lemma firstStray_append {front : List Token} {t : Token} (hfront : ∀ u ∈ front, u.isSound = true)
    (ht : t.isSound = false) (rest : List Token) : FirstStray (front ++ t :: rest) front.length t := by
  refine ⟨by simp, Token.not_isSound_iff.mp ht, fun j hj u hu => ?_⟩
  rw [List.getElem?_append_left hj] at hu
  exact Token.isSound_iff.mp (hfront u (List.mem_of_getElem? hu))

/-! ### Tokens of a text -/

section

variable {lx : Lexicon} {d : Dialect} {ctx : Context} {t : Text} {l : Lexeme}

lemma exists_lexeme_of_mem {p : Position} {ts : List Token} (h : tokensFrom lx ctx p t = .ok ts) :
    ∀ u ∈ ts, ∃ ctx' rest l, lexeme lx ctx' rest = .ok l ∧ u.kind = l.kind ∧
      (0 < l.size → u.text = rest.take l.size) := by
  induction hn : t.length using Nat.strongRecOn generalizing t ctx p ts with
  | _ n ih =>
    cases t with
    | nil =>
      rw [tokensFrom.eq_def, Except.ok.injEq] at h
      simp [← h]
    | cons c cs =>
      rw [tokensFrom.eq_def] at h
      cases hl : lexeme lx ctx (c :: cs) with
      | error fault => simp [hl] at h
      | ok l =>
        simp only [hl] at h
        cases hr : tokensFrom lx (ctx.next l.kind (c :: cs.take (l.size - 1)))
            (p.advance (c :: cs.take (l.size - 1))) (cs.drop (l.size - 1)) with
        | error e => simp [hr] at h
        | ok us =>
          simp only [hr, Except.ok.injEq] at h
          subst h
          refine List.forall_mem_cons.mpr ⟨⟨ctx, c :: cs, l, hl, rfl, fun hpos => ?_⟩, ?_⟩
          · obtain ⟨m, hm⟩ : ∃ m, l.size = m + 1 := ⟨l.size - 1, by omega⟩
            simp [hm]
          · refine ih (cs.drop (l.size - 1)).length ?_ hr rfl
            simp only [List.length_drop, List.length_cons] at hn ⊢
            omega

lemma kind_of_bracket (h : bracket? d t = some l) : l.kind = .opening ∨ l.kind = .closing := by
  rw [bracket?.eq_def] at h
  split at h
  · simp at h
  · split at h
    · exact .inl (by rw [← Option.some.inj h])
    · split at h
      · exact .inr (by rw [← Option.some.inj h])
      · simp at h

lemma kind_of_name (h : quotedName? t = some l ∨ bareName? t = some l) : l.kind = .placeholder := by
  rcases h with h | h
  · rw [quotedName?.eq_def] at h
    split at h
    · simp at h
    · split at h
      · obtain ⟨n, -, rfl⟩ := Option.map_eq_some_iff.mp h
        rfl
      · simp at h
  · rw [bareName?] at h
    split at h
    · simp at h
    · rw [← Option.some.inj h]

lemma kind_of_placeholder (h : placeholder? d t = some l) : l.kind = .placeholder := by
  rw [placeholder?.eq_def] at h
  split at h
  · simp at h
  · split at h
    · rw [← Option.some.inj h]
    · split at h
      · simp only [Option.orElse_eq_orElse, Option.orElse_eq_or, Option.or_eq_some_iff] at h
        exact kind_of_name (h.imp_right And.right)
      · simp at h

lemma kind_of_number (h : number? ctx t = some l) : l.kind = .number := by
  rw [number?] at h
  split at h
  · simp at h
  · obtain ⟨n, -, rfl⟩ := Option.map_eq_some_iff.mp h
    rfl

lemma kind_of_keyword (h : keyword? lx ctx t = some l) : ∃ role, l.kind = .keyword role := by
  rw [keyword?] at h
  split at h
  · simp at h
  · obtain ⟨⟨role, ws⟩, -, h⟩ := List.exists_of_findSome?_eq_some h
    obtain ⟨n, -, rfl⟩ := Option.map_eq_some_iff.mp h
    exact ⟨role, rfl⟩

lemma kind_of_word (h : word? lx ctx t = some l) :
    l.kind = .opening ∨ l.kind = .closing ∨ l.kind = .word := by
  rw [word?] at h
  split at h
  · simp at h
  · simp only [← Option.some.inj h]
    split
    · exact .inl rfl
    · split
      · exact .inr (.inl rfl)
      · exact .inr (.inr rfl)

lemma kind_plain (lx : Lexicon) (ctx : Context) (t : Text) :
    (plain lx ctx t).kind ≠ .blockComment ∧ ∀ name, (plain lx ctx t).kind ≠ .unclassified name := by
  rw [plain]
  cases h : (bracket? lx.dialect t <|> placeholder? lx.dialect t <|> number? ctx t <|>
      keyword? lx ctx t <|> word? lx ctx t) with
  | none => simp [operator]
  | some l =>
    simp only [Option.orElse_eq_orElse, Option.orElse_eq_or, Option.or_eq_some_iff] at h
    rw [Option.getD_some]
    rcases h with h | ⟨-, h | ⟨-, h | ⟨-, h | ⟨-, h⟩⟩⟩⟩
    · rcases kind_of_bracket h with hk | hk <;> simp [hk]
    · simp [kind_of_placeholder h]
    · simp [kind_of_number h]
    · obtain ⟨role, hk⟩ := kind_of_keyword h
      simp [hk]
    · rcases kind_of_word h with hk | hk | hk <;> simp [hk]

lemma isBlockComment_of_blockComment (hstart : t.startsWith ['/', '*'] = true)
    (h : Lexeme.blockComment (t.drop 2) = .ok l) :
    l.kind = .blockComment ∧ 0 < l.size ∧ IsBlockComment (t.take l.size) := by
  obtain ⟨r, rfl⟩ : ∃ r, t = '/' :: '*' :: r :=
    (List.isPrefixOf_iff_prefix.mp hstart).imp fun _ h => h.symm
  have hsize : 4 ≤ l.size ∧ l.size ≤ r.length + 2 := by
    rw [Lexeme.blockComment] at h
    split at h
    · next n hn =>
      obtain rfl := Except.ok.inj h
      have hlen : n + 2 ≤ r.length := find?_length_le hn
      simp only
      omega
    · simp at h
  obtain ⟨n, hn⟩ : ∃ n, l.size = n + 2 := ⟨l.size - 2, by omega⟩
  have hlen : l.size = ('*' :: r.take n).length + 1 := by
    rw [List.length_cons, List.length_take_of_le (by omega), hn]
  have hcomment : l.kind = .blockComment ∧ IsBlockComment ('/' :: '*' :: r.take n) := by
    refine Lexed.isBlockComment_of_find? (s := r.drop n) rfl ?_ hlen
    rw [List.cons_append, List.take_append_drop]
    exact h
  rw [hn]
  exact ⟨hcomment.1, Nat.succ_pos _, hcomment.2⟩

lemma blockComment_or_known (h : lexeme lx ctx t = .ok l) :
    (t.startsWith ['/', '*'] = true ∧ Lexeme.blockComment (t.drop 2) = .ok l) ∨
      l.kind ≠ .blockComment ∧ ∀ name, l.kind ≠ .unclassified name := by
  rw [lexeme] at h
  split at h
  · obtain rfl := Except.ok.inj h
    simp
  split at h
  · obtain rfl := Except.ok.inj h
    simp
  split at h
  · next hstart => exact .inl ⟨hstart, h⟩
  split at h
  · next opener _ =>
    rw [Lexeme.string] at h
    split at h
    · simp at h
    · simp only at h
      split at h
      · obtain rfl := Except.ok.inj h
        simp
      · simp at h
  · obtain rfl := Except.ok.inj h
    exact .inr (kind_plain lx ctx t)

lemma isSound_of_lexeme (h : lexeme lx ctx t = .ok l) {u : Token} (hkind : u.kind = l.kind)
    (htext : 0 < l.size → u.text = t.take l.size) : u.isSound = true := by
  rw [Token.isSound, hkind]
  rcases blockComment_or_known h with ⟨hstart, hcomment⟩ | ⟨hcomment, hknown⟩
  · obtain ⟨hk, hpos, hblock⟩ := isBlockComment_of_blockComment hstart hcomment
    rw [hk, htext hpos]
    exact hblock.isClosed
  · cases hk : l.kind with
    | blockComment => exact absurd hk hcomment
    | unclassified name => exact absurd hk (hknown name)
    | _ => rfl

lemma isBlockComment_of_mem {p : Position} {ts : List Token} (h : tokensFrom lx ctx p t = .ok ts) {u : Token}
    (hu : u ∈ ts) (hk : u.kind = .blockComment) : IsBlockComment u.text := by
  obtain ⟨ctx', rest, l, hl, hkind, htext⟩ := exists_lexeme_of_mem h u hu
  rcases blockComment_or_known hl with ⟨hstart, hcomment⟩ | ⟨hcomment, -⟩
  · obtain ⟨-, hpos, hblock⟩ := isBlockComment_of_blockComment hstart hcomment
    rw [htext hpos]
    exact hblock
  · exact absurd (hkind.symm.trans hk) hcomment

end

lemma isSound_of_tokenize {d : Dialect} {source : Text} {ts : List Token} (h : tokenize d source = .ok ts) :
    ∀ t ∈ ts, t.isSound = true := by
  intro t ht
  obtain ⟨ctx, rest, l, hl, hkind, htext⟩ := exists_lexeme_of_mem h t ht
  exact isSound_of_lexeme hl hkind htext

/-- Unless a placeholder has no text, the layout fails exactly if some token is stray, and the error
names the first such token, its place and its fault. No token that was read from a text is stray,
whatever the dialect, so that a text that was read is never refused for its tokens. -/
theorem layout_fails_at_first_stray (o : Options) (ts : List Token) :
    ((∀ fault, layout o ts ≠ .error (.unresolved fault)) →
      ((∃ e, layout o ts = .error e) ↔ ∃ t ∈ ts, t.IsStray) ∧
      ∀ e, layout o ts = .error e ↔ ∃ i t, FirstStray ts i t ∧ e = .badToken t.fault t i) ∧
    ∀ d source us, tokenize d source = .ok us →
      (∀ u ∈ us, ¬u.IsStray) ∧ ∀ fault u i, layout o us ≠ .error (.badToken fault u i) := by
  refine ⟨fun hresolved => ?_, fun d source us hus => ?_⟩
  · rcases Draft.run_cases o {} 0 ts with ⟨s, hrun, hall⟩ | ⟨s, fault, hrun⟩ |
      ⟨s, front, t, rest, rfl, hfront, ht, hrun⟩
    · have hok : layout o ts = .ok s.text := by rw [layout, hrun]
      have hnone : ∀ t ∈ ts, ¬t.IsStray := fun t ht => Token.isSound_iff.mp (hall t ht)
      have hstray : ¬∃ t ∈ ts, t.IsStray := by
        rintro ⟨t, ht, hstray⟩
        exact hnone t ht hstray
      refine ⟨iff_of_false (by simp [hok]) hstray, fun e => ⟨fun he => ?_, ?_⟩⟩
      · simp [hok] at he
      · rintro ⟨i, t, hfirst, -⟩
        exact absurd hfirst.2.1 (hnone t (List.mem_of_getElem? hfirst.1))
    · exact absurd (by rw [layout, hrun]) (hresolved fault)
    · have hfirst := firstStray_append hfront ht rest
      rw [Nat.zero_add] at hrun
      have herror : layout o (front ++ t :: rest) = .error (.badToken t.fault t front.length) := by
        rw [layout, hrun]
      refine ⟨iff_of_true ⟨_, herror⟩ ⟨t, by simp, hfirst.2.1⟩, fun e => ⟨fun he => ?_, ?_⟩⟩
      · exact ⟨_, t, hfirst, Except.error.inj (he.symm.trans herror)⟩
      · rintro ⟨i, u, hu, rfl⟩
        obtain ⟨rfl, rfl⟩ := hfirst.unique hu
        exact herror
  · have hsound := isSound_of_tokenize hus
    refine ⟨fun u hu => Token.isSound_iff.mp (hsound u hu), fun fault u i herror => ?_⟩
    rcases Draft.run_cases o {} 0 us with ⟨s, hrun, -⟩ | ⟨s, fault', hrun⟩ |
      ⟨s, front, t, rest, rfl, -, ht, -⟩
    · simp [layout, hrun] at herror
    · simp [layout, hrun] at herror
    · simp [hsound t (by simp)] at ht

theorem layout_fails_at_first_stray_overlapping :
    layout {} [⟨.word, ['a'], none, none⟩, ⟨.blockComment, ['/', '*', '/'], none, none⟩,
      ⟨.unclassified "MARK", [], none, none⟩] =
        .error (.badToken .unclosedComment ⟨.blockComment, ['/', '*', '/'], none, none⟩ 1) ∧
    ∃ us, tokenize .standard "/**//*/*/".toList = .ok us ∧ us.length = 2 ∧ ∀ u ∈ us, ¬u.IsStray := by
  have hspec := layout_fails_at_first_stray {} [⟨.word, ['a'], none, none⟩,
    ⟨.blockComment, ['/', '*', '/'], none, none⟩, ⟨.unclassified "MARK", [], none, none⟩]
  have hword : ∀ u ∈ [Token.mk .word ['a'] none none], u.isSound = true := by decide
  have hread : Reads Dialect.standard.lexicon .start .start ("/**/".toList ++ ("/*/*/".toList ++ []))
      [Lexeme.token ⟨.blockComment, 4, none⟩ _ _, Lexeme.token ⟨.blockComment, 5, none⟩ _ _] :=
    .cons rfl rfl (by simp) (.cons rfl rfl (by simp) (.nil _ _))
  refine ⟨((hspec.1 fun fault h => ?_).2 _).mpr ⟨1, _, firstStray_append hword (by decide) _, rfl⟩, ?_⟩
  · cases h
  · have hus := tokensFrom_of_reads hread
    exact ⟨_, hus, rfl, (hspec.2 .standard _ _ hus).1⟩

end SqlLayout
