import Mathlib.Tactic.Lemma
import SqlLayout.Command.Plan

/-!
# Arguments over configuration

A plan takes each setting from the arguments if they have it, else from the configuration. But some values
of the configuration are looked at in any case. `flag_overrides_config` is the law of two plans: with the
argument given, two configurations that differ only in the key of the argument make the same plan, unless
one of the two values is faulty by itself.
-/

namespace SqlLayout.Command

/-- The keys of the configuration that an argument replaces. -/
inductive Key where
  | indent
  | maxLineLength
  | commaStyle
  | dialect
deriving DecidableEq

namespace Key

def name : Key → String
  | indent => "indent"
  | maxLineLength => "max_line_length"
  | commaStyle => "comma_style"
  | dialect => "dialect"

lemma name_toList_injective {j k : Key} (h : j.name.toList = k.name.toList) : j = k := by
  cases j <;> cases k <;> simp [name] at h ⊢

def value? (config : Toml.Entries) (k : Key) : Option Value :=
  (configSection config "format").lookup k.name.toList

/-- Whether the arguments have the setting of a key. -/
def IsGiven (a : Arguments) : Key → Prop
  | indent => a.indent ≠ .absent ∨ a.tabs = true
  | maxLineLength => a.maxLineLength ≠ .absent
  | commaStyle => a.commaStyle ≠ .absent
  | dialect => a.dialect ≠ .absent

/-- Looks at a value of the configuration as is done whether or not an argument replaces it. -/
def inspect (memory : Nat) : Key → Option Value → Except PlanFault Unit
  | indent, v => (configIndent memory v).map fun _ => ()
  | maxLineLength, _ => .ok ()
  | commaStyle, v => (configCommaStyle v).map fun _ => ()
  | dialect, v => (configDialect v).map fun _ => ()

end Key

/-- Two configurations that differ at most in the value of one key of the format table. -/
structure AgreeBeside (k : Key) (config config' : Toml.Entries) : Prop where
  tables : ∀ name, name ≠ "format".toList → config.lookup name = config'.lookup name
  keys : ∀ name, name ≠ k.name.toList →
    (configSection config "format").lookup name = (configSection config' "format").lookup name

namespace AgreeBeside

variable {k : Key} {config config' : Toml.Entries}

lemma value?_eq (h : AgreeBeside k config config') {j : Key} (hne : j ≠ k) :
    j.value? config' = j.value? config :=
  (h.keys _ fun heq => hne (Key.name_toList_injective heq)).symm

lemma bindingsFor_eq (h : AgreeBeside k config config') (a : Arguments) :
    bindingsFor a config' = bindingsFor a config := by
  have hparams : configSection config' "params" = configSection config "params" := by
    rw [configSection, configSection, h.tables _ (by decide)]
  rw [bindingsFor, bindingsFor, hparams]

end AgreeBeside

/-! ### Settings that an argument replaces -/

section

variable (memory : Nat) {a : Arguments}

lemma indentFor_of_given (h : Key.indent.IsGiven a) (v : Option Value) :
    indentFor memory a v = (Key.indent.inspect memory v).bind fun _ => indentFor memory a none := by
  simp only [indentFor, Key.inspect]
  cases configIndent memory v with
  | error f => rfl
  | ok fromConfig =>
    cases hindent : a.indent with
    | absent =>
      have htabs : a.tabs = true := h.resolve_left fun hne => hne hindent
      simp [widthFor, configIndent, hindent, htabs, Except.map, Except.bind]
    | hollow => simp [widthFor, configIndent, hindent, Except.map, Except.bind]
    | value n => simp [widthFor, configIndent, hindent, Except.map, Except.bind]

lemma lineLengthFor_of_given (h : Key.maxLineLength.IsGiven a) (v : Option Value) :
    lineLengthFor a v = (Key.maxLineLength.inspect memory v).bind fun _ => lineLengthFor a none := by
  simp only [lineLengthFor, Key.inspect]
  cases hlength : a.maxLineLength with
  | absent => exact absurd hlength h
  | hollow => rfl
  | value n => rfl

lemma commaStyleFor_of_given (h : Key.commaStyle.IsGiven a) (v : Option Value) :
    commaStyleFor a v = (Key.commaStyle.inspect memory v).bind fun _ => commaStyleFor a none := by
  simp only [commaStyleFor, Key.inspect]
  cases hstyle : a.commaStyle with
  | absent => exact absurd hstyle h
  | hollow => cases configCommaStyle v <;> rfl
  | value s => cases configCommaStyle v <;> rfl

lemma dialectFor_of_given (h : Key.dialect.IsGiven a) (v : Option Value) :
    dialectFor a v = (Key.dialect.inspect memory v).bind fun _ => dialectFor a none := by
  simp only [dialectFor, Key.inspect]
  cases hdialect : a.dialect with
  | absent => exact absurd hdialect h
  | hollow => cases configDialect v <;> rfl
  | value s => cases configDialect v <;> rfl

end

lemma Plan.make_eq (memory : Nat) (a : Arguments) (config : Toml.Entries) :
    Plan.make memory a config =
      (indentFor memory a (Key.indent.value? config)).bind fun indent =>
      (lineLengthFor a (Key.maxLineLength.value? config)).bind fun maxLineLength =>
      (commaStyleFor a (Key.commaStyle.value? config)).bind fun commaStyle =>
      (dialectFor a (Key.dialect.value? config)).bind fun dialect =>
      (bindingsFor a config).bind fun bindings =>
      .ok
        { inputFile := a.inputFile, outputFile := Arguments.path? a.output, unit := indent.unit,
          maxLineLength, commaStyle, dialect, bindings, check := a.check, debug := a.debug,
          verbose := a.verbose } :=
  rfl

lemma bind_eq_error_or {ε α β : Type} {e : ε} (x : Except ε α) {f g : α → Except ε β}
    (h : ∀ a, f a = .error e ∨ f a = g a) : x.bind f = .error e ∨ x.bind f = x.bind g := by
  cases x with
  | error e' => exact .inr rfl
  | ok a => exact h a

section

variable {memory : Nat} {a : Arguments} {k : Key} {config config' : Toml.Entries}

lemma Plan.make_eq_of_inspect_eq (hgiven : k.IsGiven a) (hagree : AgreeBeside k config config')
    (h : k.inspect memory (k.value? config) = k.inspect memory (k.value? config')) :
    Plan.make memory a config = Plan.make memory a config' := by
  have hsame (j : Key) (hne : j ≠ k) : j.value? config' = j.value? config := hagree.value?_eq hne
  rw [Plan.make_eq, Plan.make_eq, hagree.bindingsFor_eq a]
  cases k with
  | indent =>
    rw [indentFor_of_given memory hgiven, indentFor_of_given memory hgiven (Key.indent.value? config'), h,
      hsame .maxLineLength (by decide), hsame .commaStyle (by decide), hsame .dialect (by decide)]
  | maxLineLength =>
    rw [lineLengthFor_of_given memory hgiven,
      lineLengthFor_of_given memory hgiven (Key.maxLineLength.value? config'), h,
      hsame .indent (by decide), hsame .commaStyle (by decide), hsame .dialect (by decide)]
  | commaStyle =>
    rw [commaStyleFor_of_given memory hgiven,
      commaStyleFor_of_given memory hgiven (Key.commaStyle.value? config'), h,
      hsame .indent (by decide), hsame .maxLineLength (by decide), hsame .dialect (by decide)]
  | dialect =>
    rw [dialectFor_of_given memory hgiven,
      dialectFor_of_given memory hgiven (Key.dialect.value? config'), h,
      hsame .indent (by decide), hsame .maxLineLength (by decide), hsame .commaStyle (by decide)]

/-- A value that is faulty by itself ends the plan with its fault, unless a setting before it does. -/
lemma Plan.make_of_inspect_error (hgiven : k.IsGiven a) (hagree : AgreeBeside k config config')
    {f : PlanFault} (h : k.inspect memory (k.value? config) = .error f) :
    Plan.make memory a config = .error f ∨ Plan.make memory a config = Plan.make memory a config' := by
  have hsame (j : Key) (hne : j ≠ k) : j.value? config' = j.value? config := hagree.value?_eq hne
  rw [Plan.make_eq, Plan.make_eq]
  cases k with
  | indent =>
    rw [indentFor_of_given memory hgiven, h]
    exact .inl rfl
  | maxLineLength => cases h
  | commaStyle =>
    rw [hsame .indent (by decide), hsame .maxLineLength (by decide),
      commaStyleFor_of_given memory hgiven, h]
    exact bind_eq_error_or _ fun _ => bind_eq_error_or _ fun _ => .inl rfl
  | dialect =>
    rw [hsame .indent (by decide), hsame .maxLineLength (by decide), hsame .commaStyle (by decide),
      dialectFor_of_given memory hgiven, h]
    exact bind_eq_error_or _ fun _ => bind_eq_error_or _ fun _ => bind_eq_error_or _ fun _ => .inl rfl

end

lemma AgreeBeside.single (k : Key) (v : Value) :
    AgreeBeside k [("format".toList, .table [(k.name.toList, v)])] [] where
  tables name hne := by
    have hname : (name == "format".toList) = false := by simpa using hne
    rw [List.lookup_cons, hname]
  keys name hne := by
    have hname : (name == k.name.toList) = false := by simpa using hne
    have hsection : configSection [("format".toList, .table [(k.name.toList, v)])] "format" =
      [(k.name.toList, v)] := rfl
    rw [hsection, List.lookup_cons, hname]
    rfl

/-- An argument replaces its key of the configuration. Two configurations that differ at most in the key
make the same plan, or fail with the same fault, if the key is the length of lines, or if their values are
both sound or both faulty in the same way. A value that is faulty by itself ends the plan with its fault, or
it does not matter at all, since another setting in front of it has ended the plan. -/
theorem flag_overrides_config (memory : Nat) (a : Arguments) (k : Key) (hgiven : k.IsGiven a)
    (config config' : Toml.Entries) (hagree : AgreeBeside k config config') :
    (k = .maxLineLength ∨ k.inspect memory (k.value? config) = k.inspect memory (k.value? config') →
      Plan.make memory a config = Plan.make memory a config') ∧
    ∀ f, k.inspect memory (k.value? config) = .error f →
      Plan.make memory a config = .error f ∨ Plan.make memory a config = Plan.make memory a config' := by
  constructor
  · rintro (rfl | h)
    · exact Plan.make_eq_of_inspect_eq hgiven hagree rfl
    · exact Plan.make_eq_of_inspect_eq hgiven hagree h
  · intro f h
    exact Plan.make_of_inspect_error hgiven hagree h

theorem flag_overrides_config_of_tabs :
    AgreeBeside .indent [("format".toList, .table [("indent".toList, .int 4)])] [] ∧
      Plan.make 80 { tabs := true } [("format".toList, .table [("indent".toList, .int 4)])] =
        Plan.make 80 { tabs := true } [] := by
  have hagree := AgreeBeside.single .indent (.int 4)
  exact ⟨hagree, (flag_overrides_config _ _ .indent (.inr rfl) _ _ hagree).1 (.inr rfl)⟩

/-- The indentation of the configuration must make sense even if an argument replaces it, however much
memory there is. -/
theorem flag_does_not_hide_bad_indent : ¬∃ memory, 4 < memory ∧ ∀ (a : Arguments) (k : Key), k.IsGiven a →
    ∀ config config', AgreeBeside k config config' →
      Plan.make memory a config = Plan.make memory a config' := by
  rintro ⟨memory, hmemory, h⟩
  have hsame := h { indent := .value 4 } .indent (.inl (by decide)) _ _ (AgreeBeside.single .indent (.bool true))
  have hbad : Plan.make memory { indent := .value 4 }
      [("format".toList, .table [("indent".toList, .bool true)])] = .error (.badIndent (.bool true)) := rfl
  have hwidth : Indent.ofWidth memory .negativeIndent 4 = .ok (.spaces 4) := by
    simp [Indent.ofWidth, Indent.indexLimit, Nat.not_le.mpr hmemory]
  have hgood : ∃ plan, Plan.make memory { indent := .value 4 } [] = .ok plan := by
    rw [Plan.make_eq, indentFor]
    simp only [widthFor, hwidth]
    exact ⟨_, rfl⟩
  obtain ⟨plan, hplan⟩ := hgood
  cases hplan.symm.trans (hsame.symm.trans hbad)

end SqlLayout.Command
