import SqlLayout.Proofs.Closure
import SqlLayout.Proofs.StrayTokens

/-!
# Which placeholders have a text

`Bindings.value?` says which value is bound to a placeholder, given how many bare placeholders stand
before it. A run counts the values that it has used and not the placeholders, and so stops counting when
the values are exhausted; `Draft.used_of_step` shows that this comes to the same. A placeholder has a text unless
its number cannot be read or its value cannot be written, and nothing else stops the formatting of a query
that can be read.
-/

namespace SqlLayout

/-- Whether a token is a placeholder with neither number nor name. -/
def Token.isBare (t : Token) : Bool :=
  t.kind = .placeholder && t.key.isNone

def bareCount (ts : List Token) : Nat :=
  ts.countP Token.isBare

namespace Bindings

/-- The number of a placeholder can be read: all of its digits have a place value, and there are not too
many. -/
def IsReadable (key : Text) : Prop :=
  (∀ c ∈ key, (Text.decimalValue? c).isSome = true) ∧ key.length ≤ digitLimit

/-- The number that the decimal digits of a key write. -/
def number (key : Text) : Nat :=
  decimalNumber (key.filterMap Text.decimalValue?)

def inOrder : Bindings → List Value
  | .ordered values => values
  | _ => []

/-- The value that is bound to a placeholder behind so many bare ones. -/
def value? (b : Bindings) (before : Nat) (t : Token) : Option Value :=
  match b, t.key with
  | .named entries, some key => entries.lookup key
  | .ordered values, some key => if isNumber key then values[number key]? else .none
  | .ordered values, .none => values[before]?
  | _, _ => .none

/-- The number of a placeholder is asked for and cannot be read. -/
def Unreadable (b : Bindings) (t : Token) : Prop :=
  ∃ values key, b = .ordered values ∧ t.key = some key ∧ isNumber key = true ∧ ¬IsReadable key

/-- A placeholder has no text: its number cannot be read, or its value cannot be written. -/
inductive Faulty (b : Bindings) (before : Nat) (t : Token) : Prop
  | number : b.Unreadable t → Faulty b before t
  | value {v : Value} : b.value? before t = some v → v.isWritable = false → Faulty b before t

/-- The text of a placeholder that has one. -/
def textFor (b : Bindings) (before : Nat) (t : Token) : Text :=
  ((b.value? before t).map Value.display).getD t.text

/-! ### One placeholder -/

lemma readNumber_of_isReadable {key : Text} (h : IsReadable key) : readNumber key = .ok (number key) := by
  have hall : key.takeWhile (fun c => (Text.decimalValue? c).isSome) = key :=
    List.takeWhile_eq_self_iff.mpr h.1
  simp only [readNumber, hall]
  rw [if_neg (Nat.not_lt.mpr h.2), if_neg (Nat.lt_irrefl _), number]

lemma readNumber_of_not_isReadable {key : Text} (h : ¬IsReadable key) :
    ∃ fault, readNumber key = .error fault := by
  simp only [readNumber]
  split
  · exact ⟨_, rfl⟩
  next hlimit =>
  split
  · exact ⟨_, rfl⟩
  next hlength =>
  have hall : key.takeWhile (fun c => (Text.decimalValue? c).isSome) = key :=
    (List.takeWhile_prefix _).eq_of_length_le (Nat.not_lt.mp hlength)
  have hdigits : ∀ c ∈ key, (Text.decimalValue? c).isSome = true := by
    rw [← hall]
    exact List.all_eq_true.mp List.all_takeWhile
  rw [hall] at hlimit
  exact absurd ⟨hdigits, Nat.not_lt.mp hlimit⟩ h

lemma textOr_of_isWritable {own : Text} {v? : Option Value} (h : ∀ v ∈ v?, v.isWritable = true) :
    textOr own v? = .ok ((v?.map Value.display).getD own) := by
  cases v? with
  | none => rfl
  | some v => simp [textOr, Value.written, h v rfl, Except.mapError]

lemma textOr_of_not_isWritable {v : Value} (h : v.isWritable = false) (own : Text) :
    textOr own (some v) = .error (.digits .writing) := by
  simp [textOr, Value.written, h, Except.mapError]

/-- How many values are used behind a placeholder. -/
def usedBehind (b : Bindings) (used : Nat) (t : Token) : Nat :=
  if t.key.isNone ∧ used < b.inOrder.length then used + 1 else used

lemma resolve_of_unreadable {b : Bindings} {t : Token} (h : b.Unreadable t) (used : Nat) :
    ∃ fault, b.resolve used t = .error fault := by
  obtain ⟨values, key, rfl, hkey, hnumber, hunreadable⟩ := h
  obtain ⟨fault, hfault⟩ := readNumber_of_not_isReadable hunreadable
  exact ⟨fault, by simp [resolve, hkey, hnumber, hfault]⟩

lemma resolve_eq {b : Bindings} {t : Token} (h : ¬b.Unreadable t) (used : Nat) :
    b.resolve used t = (textOr t.text (b.value? used t)).map (·, b.usedBehind used t) := by
  cases b with
  | none | text => simp [resolve, value?, textOr, Except.map, usedBehind, inOrder]
  | named entries =>
    cases hkey : t.key with
    | none => simp [resolve, value?, hkey, textOr, Except.map, usedBehind, inOrder]
    | some key => simp [resolve, value?, hkey, usedBehind]
  | ordered values =>
    cases hkey : t.key with
    | none => simp [resolve, value?, hkey, usedBehind, inOrder]
    | some key =>
      cases hnumber : isNumber key with
      | false => simp [resolve, value?, hkey, hnumber, textOr, Except.map, usedBehind]
      | true =>
        have hreadable : IsReadable key := by
          by_contra hnot
          exact h ⟨values, key, rfl, hkey, hnumber, hnot⟩
        simp [resolve, value?, hkey, hnumber, readNumber_of_isReadable hreadable, usedBehind]

lemma resolve_of_faulty {b : Bindings} {used : Nat} {t : Token} (h : b.Faulty used t) :
    ∃ fault, b.resolve used t = .error fault := by
  by_cases hunreadable : b.Unreadable t
  · exact resolve_of_unreadable hunreadable used
  · cases h with
    | number hnumber => exact absurd hnumber hunreadable
    | value hv hwritable =>
      rw [resolve_eq hunreadable, hv, textOr_of_not_isWritable hwritable]
      exact ⟨_, rfl⟩

lemma not_faulty_of_resolve {b : Bindings} {used : Nat} {t : Token} {r : Text × Nat}
    (h : b.resolve used t = .ok r) : ¬b.Faulty used t := by
  intro hfaulty
  obtain ⟨fault, hfault⟩ := resolve_of_faulty hfaulty
  simp [hfault] at h

lemma resolve_of_not_faulty {b : Bindings} {used : Nat} {t : Token} (h : ¬b.Faulty used t) :
    b.resolve used t = .ok (b.textFor used t, b.usedBehind used t) := by
  have hwritable : ∀ v ∈ b.value? used t, v.isWritable = true := by
    intro v hv
    by_contra hnot
    exact h (.value hv (Bool.eq_false_iff.mpr hnot))
  rw [resolve_eq fun hunreadable => h (.number hunreadable), textOr_of_isWritable hwritable]
  rfl

lemma resolve_eq_error_iff {b : Bindings} {used : Nat} {t : Token} :
    (∃ fault, b.resolve used t = .error fault) ↔ b.Faulty used t := by
  refine ⟨fun herror => ?_, resolve_of_faulty⟩
  by_contra hnot
  obtain ⟨fault, hfault⟩ := herror
  simp [resolve_of_not_faulty hnot] at hfault

/-! ### Counting the bare placeholders -/

lemma value?_min (b : Bindings) (before : Nat) (t : Token) :
    b.value? (min before b.inOrder.length) t = b.value? before t := by
  cases b with
  | none | text => rfl
  | named entries => cases hkey : t.key <;> simp only [value?, hkey]
  | ordered values =>
    cases hkey : t.key with
    | some key => simp only [value?, hkey]
    | none =>
      simp only [value?, hkey, inOrder]
      rcases Nat.le_total before values.length with hle | hle
      · rw [Nat.min_eq_left hle]
      · rw [Nat.min_eq_right hle, List.getElem?_eq_none hle, List.getElem?_eq_none (Nat.le_refl _)]

lemma faulty_min {b : Bindings} {before : Nat} {t : Token} :
    b.Faulty (min before b.inOrder.length) t ↔ b.Faulty before t := by
  constructor
  · rintro (hnumber | ⟨hv, hwritable⟩)
    · exact .number hnumber
    · exact .value (value?_min b before t ▸ hv) hwritable
  · rintro (hnumber | ⟨hv, hwritable⟩)
    · exact .number hnumber
    · exact .value ((value?_min b before t).symm ▸ hv) hwritable

end Bindings

lemma bareCount_cons (t : Token) (ts : List Token) :
    bareCount (t :: ts) = (if t.isBare then 1 else 0) + bareCount ts := by
  rw [bareCount, List.countP_cons, Nat.add_comm, bareCount]

lemma usedBehind_min {b : Bindings} {t : Token} (ht : t.kind = .placeholder) (before : Nat) :
    b.usedBehind (min before b.inOrder.length) t =
      min (before + if t.isBare then 1 else 0) b.inOrder.length := by
  have hbare : t.isBare = t.key.isNone := by simp [Token.isBare, ht]
  rw [Bindings.usedBehind, hbare]
  cases t.key.isNone with
  | false => simp
  | true =>
    simp only [true_and, if_true]
    split <;> omega

namespace Draft

variable {o : Options} {s s' : Draft} {before : Nat} {t : Token} {ts rest : List Token}

lemma step_eq_unresolved_iff (ht : t.isSound = true) (hs : s.used = min before o.bindings.inOrder.length)
    (index : Nat) (rest : List Token) : (∃ fault, s.step o index t rest = .error (.unresolved fault)) ↔
      t.kind = .placeholder ∧ o.bindings.Faulty before t := by
  rw [← Bindings.faulty_min, ← hs, ← Bindings.resolve_eq_error_iff]
  constructor
  · rintro ⟨fault, hfault⟩
    cases hc : t.chunk o s.used with
    | ok r => simp [step_eq_ok ht hc] at hfault
    | error fault' =>
      unfold Token.chunk at hc
      cases hk : t.kind <;> simp only [hk, reduceCtorEq] at hc
      exact ⟨rfl, fault', hc⟩
  · rintro ⟨hk, fault, hfault⟩
    exact ⟨fault, by simp [step, place, hk, hfault]⟩

lemma used_of_step {index : Nat} (h : s.step o index t rest = .ok s')
    (hs : s.used = min before o.bindings.inOrder.length) :
    s'.used = min (before + if t.isBare then 1 else 0) o.bindings.inOrder.length := by
  obtain ⟨c, used, hc, rfl⟩ := exists_placed_of_step h
  refine (used_placed hc index rest).trans ?_
  unfold Token.chunk at hc
  by_cases hk : t.kind = .placeholder
  · simp only [hk] at hc
    rw [Bindings.resolve_of_not_faulty (Bindings.not_faulty_of_resolve hc), Except.ok.injEq, Prod.mk.injEq, hs,
      usedBehind_min hk] at hc
    exact hc.2.symm
  · have hused : s.used = used := by
      cases hkind : t.kind with
      | placeholder => exact absurd hkind hk
      | _ =>
        simp only [hkind] at hc
        exact (Prod.mk.inj (Except.ok.inj hc)).2
    simp [Token.isBare, hk, ← hused, hs]

/-- A run over tokens of a query stops exactly if it comes to a faulty placeholder. -/
lemma run_eq_unresolved_iff (hts : ∀ t ∈ ts, t.isSound = true)
    (hs : s.used = min before o.bindings.inOrder.length) (index : Nat) :
    (∃ e, (s.run o index ts).2 = some e) ↔ ∃ front t rest, ts = front ++ t :: rest ∧
      t.kind = .placeholder ∧ o.bindings.Faulty (before + bareCount front) t := by
  -- the count of bare placeholders goes up with the run, and the values used follow it up to their number
  induction ts generalizing s index before with
  | nil => simp [run]
  | cons t ts ih =>
    rw [List.forall_mem_cons] at hts
    have hstop := step_eq_unresolved_iff hts.1 hs index ts
    rcases step_of_isSound (o := o) (s := s) hts.1 index ts with ⟨s', hstep⟩ | ⟨fault, hstep⟩
    · have hfine : ¬(t.kind = .placeholder ∧ o.bindings.Faulty before t) := by
        rw [← hstop, hstep]
        simp
      rw [run, hstep]
      dsimp only
      rw [ih hts.2 (used_of_step hstep hs)]
      constructor
      · rintro ⟨front, u, rest, rfl, hu⟩
        refine ⟨t :: front, u, rest, rfl, ?_⟩
        rwa [bareCount_cons, ← Nat.add_assoc]
      · rintro ⟨front, u, rest, hsplit, hu⟩
        cases front with
        | nil =>
          obtain ⟨rfl, -⟩ := List.cons.inj hsplit
          exact absurd hu hfine
        | cons t' front =>
          obtain ⟨rfl, rfl⟩ := List.cons.inj hsplit
          rw [bareCount_cons, ← Nat.add_assoc] at hu
          exact ⟨front, u, rest, rfl, hu⟩
    · have hfaulty := hstop.mp ⟨fault, hstep⟩
      rw [run, hstep]
      exact iff_of_true ⟨_, rfl⟩ ⟨[], t, ts, rfl, hfaulty⟩

end Draft

lemma format_fails_iff {dialect query : Text} {s : Settings} {o : Options} (hs : s.optionsIn dialect = .ok o) :
    (∃ e, format dialect s query = .error e ∧ ∀ e', e ≠ .unreadable e') ↔
      ∃ front t rest, tokenize .standard query = .ok (front ++ t :: rest) ∧ t.kind = .placeholder ∧
        s.bindings.Faulty (bareCount front) t := by
  obtain ⟨hdialect, hbindings, -⟩ := Settings.optionsIn_eq_ok hs
  have hformat : format dialect s query = formatWith o query := by rw [format, hs]
  rw [hformat, formatWith, hdialect]
  cases htokens : tokenize .standard query with
  | error e => simp
  | ok ts =>
    have hused : Draft.used {} = min 0 o.bindings.inOrder.length := (Nat.zero_min _).symm
    have hrun := Draft.run_eq_unresolved_iff (isSound_of_tokenize htokens) hused 0
    simp only [Nat.zero_add, hbindings] at hrun
    simp only [Except.ok.injEq]
    rw [← hrun, layout]
    cases hend : Draft.run o {} 0 ts with
    | mk s' failure => cases failure <;> simp

/-- A placeholder has a text unless it is faulty: values are bound in order and its number holds a sign
without a place value or too many digits, or the value that is bound to it holds an integer with too many
digits. Its text is that of the value, or its own if no value is bound to it. With valid settings, faulty
placeholders are the only thing in a query that can be read for which it is not formatted. -/
theorem placeholder_resolves_iff (b : Bindings) (used : Nat) (t : Token) :
    ((∃ fault, b.resolve used t = .error fault) ↔ b.Faulty used t) ∧
    (¬b.Faulty used t → ∃ used',
      b.resolve used t = .ok (((b.value? used t).map Value.display).getD t.text, used')) ∧
    ∀ (dialect query : Text) (s : Settings) (o : Options), s.optionsIn dialect = .ok o →
      ((∃ e, format dialect s query = .error e ∧ ∀ e', e ≠ .unreadable e') ↔
        ∃ front t rest, tokenize .standard query = .ok (front ++ t :: rest) ∧ t.kind = .placeholder ∧
          s.bindings.Faulty (bareCount front) t) :=
  ⟨Bindings.resolve_eq_error_iff, fun hnot => ⟨_, Bindings.resolve_of_not_faulty hnot⟩,
    fun _ _ _ _ hs => format_fails_iff hs⟩

theorem placeholder_resolves_iff_of_long_integer :
    ∃ e, format Dialect.standard.name { bindings := .ordered [.int (.ofNat (Nat.pow 10 digitLimit))] } ['?', '?'] =
      .error e ∧ ∀ e', e ≠ .unreadable e' := by
  have hlong : Value.isWritable (.int (.ofNat (Nat.pow 10 digitLimit))) = false := by
    rw [Value.isWritable, withinDigitLimit, Int.natAbs_ofNat', decide_eq_false_iff_not]
    exact Nat.lt_irrefl _
  have hreads : Reads Dialect.standard.lexicon .start .start (['?'] ++ (['?'] ++ [])) _ :=
    .cons rfl rfl (by simp) (.cons rfl rfl (by simp) (.nil _ _))
  have hspec := placeholder_resolves_iff .none 0 ⟨.placeholder, ['?'], none, none⟩
  exact (hspec.2.2 _ _ _ _ rfl).mpr ⟨[], _, _, tokensFrom_of_reads hreads, rfl, .value rfl hlong⟩

/-- A superscript is a digit to the lexer and no number to the bindings. -/
theorem superscript_has_no_text : ¬∀ (b : Bindings) (query : Text) (ts : List Token),
    tokenize .standard query = .ok ts → ∀ t ∈ ts, t.kind = .placeholder →
      ∃ text used, b.resolve 0 t = .ok (text, used) := by
  intro h
  have hlexeme : lexeme Dialect.standard.lexicon .start (['?', '²'] ++ []) =
      .ok { kind := .placeholder, size := 2, key := some ['²'] } := by
    rw [lexeme_of_startsPlain (by decide)]
    rfl
  have hreads : Reads Dialect.standard.lexicon .start .start (['?', '²'] ++ []) _ :=
    .cons hlexeme rfl (by simp) (.nil _ _)
  obtain ⟨text, used, hresolve⟩ :=
    h (.ordered [.text ['a']]) _ _ (tokensFrom_of_reads hreads) _ List.mem_cons_self rfl
  have hunreadable : ¬Bindings.IsReadable ['²'] := fun hreadable => absurd (hreadable.1 '²' (by simp)) (by decide)
  exact Bindings.not_faulty_of_resolve hresolve (.number ⟨_, _, rfl, rfl, by decide, hunreadable⟩)

end SqlLayout
