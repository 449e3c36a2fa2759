import Mathlib.Data.List.Induction
import SqlLayout.Proofs.Growth
import SqlLayout.Proofs.Resolution

/-!
# Values bound in order

A run keeps a hidden count of the values that it has used. `Receives` says what a placeholder is replaced by
without that count: it depends on the placeholder, on the values and on how many bare placeholders stand
before it. A run that comes to the placeholder writes this text behind the page so far and the commas held
back, and the text stays on the page, whatever the other tokens are.
-/

namespace SqlLayout

/-- A key is the decimal numeral of a number; zeros may stand in front. -/
def IsNumeral (key : Text) (m : Nat) : Prop :=
  ∃ zeros, key = List.replicate zeros '0' ++ Nat.toDigits 10 m

/-- A key is not too long and has ASCII digits only, or it is no number at all. -/
def PlainKey (key : Text) : Prop :=
  (∀ c ∈ key, c.isDigit = true) ∧ key.length ≤ digitLimit ∨ Bindings.isNumber key = false

/-- What a placeholder receives from values bound in order, behind so many bare ones. -/
inductive Receives (values : List Value) (before : Nat) (t : Token) : Except DigitFault Text → Prop
  | next {v : Value} : t.key = none → values[before]? = some v → Receives values before t v.written
  | nth {key : Text} {m : Nat} {v : Value} : t.key = some key → IsNumeral key m → values[m]? = some v →
      Receives values before t v.written
  | own : (t.key = none → values.length ≤ before) →
      (∀ key m, t.key = some key → IsNumeral key m → values.length ≤ m) → Receives values before t (.ok t.text)

/-! ### Numerals -/

lemma decimalValue?_of_isDigit {c : Char} (h : c.isDigit = true) :
    Text.decimalValue? c = some (c.toNat - '0'.toNat) := by
  rw [Text.decimalValue?, if_pos (toNat_lt_of_isDigit h), if_pos h]
  rfl

lemma toDigits_of_isDigit {c : Char} (h : c.isDigit = true) :
    c.toNat - '0'.toNat < 10 ∧ Nat.toDigits 10 (c.toNat - '0'.toNat) = [c] :=
  Text.ascii_forall (P := fun c => c.isDigit = true → c.toNat - '0'.toNat < 10 ∧
    Nat.toDigits 10 (c.toNat - '0'.toNat) = [c]) (by decide +kernel) (toNat_lt_of_isDigit h) h

lemma number_eq_ofDigitChars {key : Text} (h : ∀ c ∈ key, c.isDigit = true) :
    Bindings.number key = Nat.ofDigitChars 10 key 0 := by
  rw [Bindings.number, Bindings.decimalNumber]
  generalize 0 = n
  induction key generalizing n with
  | nil => rfl
  | cons c key ih =>
    rw [List.forall_mem_cons] at h
    rw [List.filterMap_cons_some (decimalValue?_of_isDigit h.1), List.foldl_cons, ih h.2, Nat.ofDigitChars_cons]

lemma ofDigitChars_replicate_zero (zeros : Nat) : Nat.ofDigitChars 10 (List.replicate zeros '0') 0 = 0 := by
  induction zeros with
  | zero => rfl
  | succ zeros ih => rw [List.replicate_succ, Nat.ofDigitChars_cons]; exact ih

lemma IsNumeral.spec {key : Text} {m : Nat} (h : IsNumeral key m) :
    key ≠ [] ∧ (∀ c ∈ key, c.isDigit = true) ∧ Bindings.number key = m := by
  obtain ⟨zeros, rfl⟩ := h
  have hdigits : ∀ c ∈ List.replicate zeros '0' ++ Nat.toDigits 10 m, c.isDigit = true := by
    intro c hc
    rcases List.mem_append.mp hc with hc | hc
    · rw [(List.mem_replicate.mp hc).2]
      decide
    · exact Nat.isDigit_of_mem_toDigits (by decide) (by decide) hc
  refine ⟨by simp [Nat.toDigits_ne_nil], hdigits, ?_⟩
  rw [number_eq_ofDigitChars hdigits, Nat.ofDigitChars_append, ofDigitChars_replicate_zero,
    Nat.ofDigitChars_toDigits (by decide) (by decide)]

lemma isNumeral_number {key : Text} (hne : key ≠ []) (h : ∀ c ∈ key, c.isDigit = true) :
    IsNumeral key (Bindings.number key) := by
  rw [number_eq_ofDigitChars h]
  induction key using List.reverseRecOn with
  | nil => exact absurd rfl hne
  | append_singleton ds c ih =>
    rw [List.forall_mem_append] at h
    obtain ⟨hc, hdigit⟩ := toDigits_of_isDigit (h.2 c (List.mem_singleton_self c))
    rw [Nat.ofDigitChars_append, Nat.ofDigitChars_cons, Nat.ofDigitChars_nil]
    by_cases hds : ds = []
    · subst hds
      refine ⟨0, ?_⟩
      rw [Nat.ofDigitChars_nil, Nat.mul_zero, Nat.zero_add, hdigit]
      rfl
    obtain ⟨zeros, hzeros⟩ := ih hds h.1
    generalize Nat.ofDigitChars 10 ds 0 = n at hzeros ⊢
    rcases Nat.eq_zero_or_pos n with rfl | hn
    · refine ⟨zeros + 1, ?_⟩
      rw [hzeros, Nat.mul_zero, Nat.zero_add, hdigit, List.replicate_succ', Nat.toDigits_of_lt_base (by decide)]
      rfl
    · refine ⟨zeros, ?_⟩
      rw [← Nat.toDigits_append_toDigits (by decide) hn hc, hdigit, hzeros, List.append_assoc]

lemma isNumber_of_isDigit {key : Text} (hne : key ≠ []) (h : ∀ c ∈ key, c.isDigit = true) :
    Bindings.isNumber key = true := by
  simp only [Bindings.isNumber, Bool.and_eq_true, Bool.not_eq_true', List.isEmpty_eq_false_iff, List.all_eq_true]
  refine ⟨hne, fun c hc => ?_⟩
  simp [Text.isDigit, decimalValue?_of_isDigit (h c hc)]

lemma PlainKey.isDigit {key : Text} (h : PlainKey key) (hnumber : Bindings.isNumber key = true) :
    key ≠ [] ∧ (∀ c ∈ key, c.isDigit = true) ∧ key.length ≤ digitLimit := by
  rcases h with ⟨hdigits, hlength⟩ | hnot
  · refine ⟨?_, hdigits, hlength⟩
    rintro rfl
    simp [Bindings.isNumber] at hnumber
  · simp [hnumber] at hnot

/-! ### What is received -/

/-- The text of the value that is bound to a placeholder, or its own. -/
def received (values : List Value) (before : Nat) (t : Token) : Except DigitFault Text :=
  match Bindings.value? (.ordered values) before t with
  | some v => v.written
  | none => .ok t.text

section

variable {values : List Value} {before : Nat} {t : Token} (hplain : ∀ key, t.key = some key → PlainKey key)
include hplain

lemma not_unreadable_of_plainKey : ¬Bindings.Unreadable (.ordered values) t := by
  rintro ⟨_, key, -, hkey, hnumber, hunreadable⟩
  obtain ⟨-, hdigits, hlength⟩ := (hplain key hkey).isDigit hnumber
  exact hunreadable ⟨fun c hc => by simp [decimalValue?_of_isDigit (hdigits c hc)], hlength⟩

lemma receives_iff {r : Except DigitFault Text} : Receives values before t r ↔ r = received values before t := by
  cases hkey : t.key with
  | none =>
    have hvalue : Bindings.value? (.ordered values) before t = values[before]? := by
      simp only [Bindings.value?, hkey]
    rw [received, hvalue]
    constructor
    · rintro (⟨-, hv⟩ | ⟨hsome, -, -⟩ | ⟨hall, -⟩)
      · rw [hv]
      · simp [hkey] at hsome
      · rw [List.getElem?_eq_none (hall hkey)]
    · rintro rfl
      cases hv : values[before]? with
      | some v => exact .next hkey hv
      | none => exact .own (fun _ => List.getElem?_eq_none_iff.mp hv) (by simp [hkey])
  | some key =>
    have hnumeral : ∀ {m : Nat}, IsNumeral key m →
        Bindings.value? (.ordered values) before t = values[m]? := by
      intro m hm
      obtain ⟨hne, hdigits, rfl⟩ := hm.spec
      simp only [Bindings.value?, hkey, isNumber_of_isDigit hne hdigits, if_true]
    rw [received]
    constructor
    · rintro (⟨hnone, -⟩ | ⟨hsome, hm, hv⟩ | ⟨-, hall⟩)
      · simp [hkey] at hnone
      · obtain rfl := Option.some.inj (hkey.symm.trans hsome)
        rw [hnumeral hm, hv]
      · cases hnumber : Bindings.isNumber key with
        | false => simp [Bindings.value?, hkey, hnumber]
        | true =>
          obtain ⟨hne, hdigits, -⟩ := (hplain key hkey).isDigit hnumber
          have hm := isNumeral_number hne hdigits
          rw [hnumeral hm, List.getElem?_eq_none (hall key _ hkey hm)]
    · rintro rfl
      cases hv : Bindings.value? (.ordered values) before t with
      | some v =>
        obtain ⟨hnumber, hnth⟩ : Bindings.isNumber key = true ∧ values[Bindings.number key]? = some v := by
          simpa [Bindings.value?, hkey] using hv
        obtain ⟨hne, hdigits, -⟩ := (hplain key hkey).isDigit hnumber
        exact .nth hkey (isNumeral_number hne hdigits) hnth
      | none =>
        refine .own (by simp [hkey]) fun key' m hsome hm => ?_
        obtain rfl := Option.some.inj (hkey.symm.trans hsome)
        rw [hnumeral hm] at hv
        exact List.getElem?_eq_none_iff.mp hv

lemma resolve_eq_received : Bindings.resolve (.ordered values) (min before values.length) t =
    ((received values before t).mapError .digits).map
      (·, Bindings.usedBehind (.ordered values) (min before values.length) t) := by
  have hvalue := Bindings.value?_min (.ordered values) before t
  rw [Bindings.inOrder] at hvalue
  rw [Bindings.resolve_eq (not_unreadable_of_plainKey hplain), hvalue, received]
  cases Bindings.value? (.ordered values) before t <;> rfl

end

namespace Draft

variable {o : Options} {values : List Value} (hvalues : o.bindings = .ordered values)
include hvalues

/-- A run has used a value for each bare placeholder so far, as long as there are values. -/
lemma used_of_steps {ts : List Token} {k : Nat} (hk : k ≤ (steps o {} 0 ts).1.length) :
    (draftAt {} (steps o {} 0 ts).1 k).used = min (bareCount (ts.take k)) values.length := by
  have hordered : o.bindings.inOrder = values := by rw [hvalues, Bindings.inOrder]
  induction k with
  | zero => exact (Nat.zero_min _).symm
  | succ k ih =>
    obtain ⟨t, ht, hstep⟩ := step_of_steps hk
    have hused := ih (Nat.le_of_succ_le hk)
    rw [← hordered] at hused
    rw [used_of_step hstep hused, hordered, List.take_add_one, ht, bareCount, bareCount, List.countP_append]
    simp

lemma step_placeholder {s : Draft} {before : Nat} (hs : s.used = min before values.length) {t : Token}
    (ht : t.kind = .placeholder) (hplain : ∀ key, t.key = some key → PlainKey key) (index : Nat)
    (rest : List Token) :
    (∀ text, received values before t = .ok text → ∃ s', s.step o index t rest = .ok s' ∧
      s'.page.text = s.page.text ++ s.held ++ text ++ [' ']) ∧
    ∀ fault, received values before t = .error fault →
      s.step o index t rest = .error (.unresolved (.digits fault)) := by
  have hresolve : Bindings.resolve (.ordered values) (min before values.length) t = _ := resolve_eq_received hplain
  rw [← hs, ← hvalues] at hresolve
  constructor
  · intro text htext
    rw [htext] at hresolve
    have hok : o.bindings.resolve s.used t = .ok (text, o.bindings.usedBehind s.used t) := hresolve
    refine ⟨_, by simp only [step, place, ht, hok]; rfl, ?_⟩
    simp [writeSpaced, write, Page.text_append]
  · intro fault hfault
    rw [hfault] at hresolve
    have herror : o.bindings.resolve s.used t = .error (.digits fault) := hresolve
    simp only [step, place, ht, herror]

end Draft

open Draft

/-- Values are given out in order to the bare placeholders, by number to the others, and a placeholder for which
there is no value keeps its own text. This depends on nothing else in the token sequence. When a run comes to
a placeholder, it writes what the placeholder receives behind the page so far and the commas held back, and the
text stays on the page to the end; only a value that cannot be written stops the run there. -/
theorem placeholder_receives_value (o : Options) (values : List Value) (hvalues : o.bindings = .ordered values)
    (ts : List Token) (drafts : List Draft) (failure : Option LayoutError)
    (h : steps o {} 0 ts = (drafts, failure)) (i : Nat) (hi : i ≤ drafts.length) (t : Token)
    (ht : ts[i]? = some t) (hkind : t.kind = .placeholder) (hplain : ∀ key, t.key = some key → PlainKey key) :
    ∃ r, (∀ r', Receives values (bareCount (ts.take i)) t r' ↔ r' = r) ∧
      (∀ text, r = .ok text → i < drafts.length ∧
        (draftAt {} drafts (i + 1)).page.text =
          (draftAt {} drafts i).page.text ++ (draftAt {} drafts i).held ++ text ++ [' '] ∧
        Text.trimEnd ((draftAt {} drafts i).page.text ++ (draftAt {} drafts i).held ++ text) <+:
          (run o {} 0 ts).1.page.text) ∧
      ∀ fault, r = .error fault → drafts.length = i ∧ failure = some (.unresolved (.digits fault)) := by
  obtain rfl : drafts = (steps o {} 0 ts).1 := by rw [h]
  have hat := steps_at h hi ht
  have hstep := step_placeholder hvalues (used_of_steps hvalues hi) hkind hplain (0 + i) (ts.drop (i + 1))
  refine ⟨received values (bareCount (ts.take i)) t, fun r' => receives_iff hplain, fun text htext => ?_,
    fun fault hfault => hat.2 _ (hstep.2 fault hfault)⟩
  obtain ⟨s', hs', hpage⟩ := hstep.1 text htext
  obtain ⟨hlt, rfl⟩ := hat.1 s' hs'
  refine ⟨hlt, hpage, grows_to_end hlt _ (Text.trimEnd_trimEnd _) ?_⟩
  rw [hpage]
  obtain ⟨b, -, hb⟩ := Text.exists_trimEnd_append
    ((draftAt {} (steps o {} 0 ts).1 i).page.text ++ (draftAt {} (steps o {} 0 ts).1 i).held ++ text)
  exact List.IsPrefix.trans ⟨b, hb.symm⟩ (List.prefix_append _ _)

theorem placeholder_receives_value_behind_number :
    ∃ drafts, steps { bindings := .ordered [.text ['a'], .text ['b']] } {} 0
      [⟨.placeholder, ['?'], none, none⟩, ⟨.placeholder, ['?', '0', '1'], some ['0', '1'], none⟩,
        ⟨.operator, [','], none, none⟩, ⟨.placeholder, ['?'], none, none⟩] = (drafts, none) ∧
      (draftAt {} drafts 3).held = [','] ∧
      (draftAt {} drafts 4).page.text = (draftAt {} drafts 3).page.text ++ [',', 'b', ' '] := by
  have hspec := placeholder_receives_value { bindings := .ordered [.text ['a'], .text ['b']] } _ rfl
    [⟨.placeholder, ['?'], none, none⟩, ⟨.placeholder, ['?', '0', '1'], some ['0', '1'], none⟩,
      ⟨.operator, [','], none, none⟩, ⟨.placeholder, ['?'], none, none⟩] _ _ rfl 3 (by decide) _ rfl rfl (by simp)
  obtain ⟨r, hr, hwritten, -⟩ := hspec
  have hb : Value.written (.text ['b']) = r := (hr _).mp (.next rfl rfl)
  refine ⟨_, rfl, rfl, (hwritten ['b'] hb.symm).2.1.trans ?_⟩
  rw [List.append_assoc, List.append_assoc]
  rfl

end SqlLayout
