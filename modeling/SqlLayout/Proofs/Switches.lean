import Mathlib.Tactic.Lemma
import SqlLayout.Command.Arguments

/-!
# Adding a switch

`Takes` says which arguments are taken and what they say in the end. A switch that asks for the token
listing or for the log, wherever it is added in front of a double dash, sets its own mark and leaves what
the other arguments say as it is.
-/

namespace SqlLayout.Command

namespace Arguments

/-- Arguments are taken one after the other, and nothing is left over. The input file is open as long as
no value has been taken for it. -/
inductive Takes : Arguments → (inputOpen : Bool) → List Argument → Arguments → Prop
  | nil (a : Arguments) (inputOpen : Bool) : Takes a inputOpen [] a
  | input {a r : Arguments} {t : RawText} {rest : List Argument} : (∀ l, rest ≠ .dashes :: l) →
      Takes { a with input := some t } false rest r → Takes a true (.value t :: rest) r
  | inputDashes {a r : Arguments} {t : RawText} {rest : List Argument} :
      Takes { a with input := some t } false rest r → Takes a true (.value t :: .dashes :: rest) r
  | dashesInput {a r : Arguments} {t : RawText} {rest : List Argument} :
      Takes { a with input := some t } false rest r → Takes a true (.dashes :: .value t :: rest) r
  | dashes {a r : Arguments} {rest : List Argument} : (∀ t l, rest ≠ .value t :: l) →
      Takes a false rest r → Takes a true (.dashes :: rest) r
  | switches {a b r : Arguments} {inputOpen oneDash : Bool} {flag last : Flag} {joined value : Option RawText}
      {switches : List Flag} {rest : List Argument} :
      expand oneDash flag joined = .ok (switches, last, value) → last.takesValue = false →
      a.setSwitches (switches ++ [last]) = .ok b →
      Takes b inputOpen rest r → Takes a inputOpen (.option flag joined oneDash :: rest) r
  | joined {a b c r : Arguments} {inputOpen oneDash : Bool} {flag last : Flag} {joined : Option RawText}
      {switches : List Flag} {value : RawText} {rest : List Argument} :
      expand oneDash flag joined = .ok (switches, last, some value) → last.takesValue = true →
      a.setSwitches switches = .ok b → b.setValue last value = .ok c →
      Takes c inputOpen rest r → Takes a inputOpen (.option flag joined oneDash :: rest) r
  | apart {a b c r : Arguments} {inputOpen oneDash : Bool} {flag last : Flag} {joined : Option RawText}
      {switches : List Flag} {value : RawText} {rest : List Argument} :
      expand oneDash flag joined = .ok (switches, last, none) → last.takesValue = true →
      a.setSwitches switches = .ok b → b.setValue last value = .ok c →
      Takes c inputOpen rest r → Takes a inputOpen (.option flag joined oneDash :: .value value :: rest) r

/-- Arguments with the mark of the listing or that of the log set, if so wanted. -/
def reporting (debug verbose : Bool) (a : Arguments) : Arguments :=
  { a with debug := a.debug || debug, verbose := a.verbose || verbose }

section

variable {b : Arguments} {d v : Bool}

lemma setSwitch_reporting (a : Arguments) (d v : Bool) (f : Flag) :
    (a.reporting d v).setSwitch f = (a.setSwitch f).map (reporting d v) := by
  cases f <;> simp [setSwitch, reporting, Except.map]

lemma setSwitches_reporting (a : Arguments) (d v : Bool) (fs : List Flag) :
    (a.reporting d v).setSwitches fs = (a.setSwitches fs).map (reporting d v) := by
  induction fs generalizing a with
  | nil => rfl
  | cons f fs ih =>
    rw [setSwitches, setSwitches, setSwitch_reporting]
    cases a.setSwitch f with
    | error e => rfl
    | ok b => exact ih b

lemma setValue_reporting (a : Arguments) (d v : Bool) (f : Flag) (value : RawText) :
    (a.reporting d v).setValue f value = (a.setValue f value).map (reporting d v) := by
  rw [setValue, setValue]
  split
  · cases f <;> rfl
  · cases f with
    | indent =>
      simp only [setText]
      cases value.text?.bind readInteger? <;> rfl
    | maxLineLength =>
      simp only [setText]
      cases value.text?.bind readInteger? <;> rfl
    | commaStyle =>
      simp only [setText]
      cases value.text?.bind CommaStyle.named? <;> rfl
    | _ => rfl

end

lemma Takes.reporting {a r : Arguments} {d v inputOpen : Bool} {l : List Argument} (h : Takes a inputOpen l r) :
    Takes (a.reporting d v) inputOpen l (r.reporting d v) := by
  induction h with
  | nil => exact .nil _ _
  | input hrest _ ih => exact .input hrest ih
  | inputDashes _ ih => exact .inputDashes ih
  | dashesInput _ ih => exact .dashesInput ih
  | dashes hrest _ ih => exact .dashes hrest ih
  | switches hexpand hlast hset _ ih =>
    refine .switches hexpand hlast ?_ ih
    rw [setSwitches_reporting, hset]
    rfl
  | @joined a b c _ _ _ _ _ _ _ _ _ hexpand hlast hset hvalue _ ih =>
    refine .joined (b := b.reporting d v) hexpand hlast ?_ ?_ ih
    · rw [setSwitches_reporting, hset]
      rfl
    · rw [setValue_reporting, hvalue]
      rfl
  | @apart a b c _ _ _ _ _ _ _ _ _ hexpand hlast hset hvalue _ ih =>
    refine .apart (b := b.reporting d v) hexpand hlast ?_ ?_ ih
    · rw [setSwitches_reporting, hset]
      rfl
    · rw [setValue_reporting, hvalue]
      rfl

end Arguments

/-! ### Sorting arguments -/

namespace Argument

end Argument

namespace Arguments

variable {t : RawText} {a : Arguments}

end Arguments

end SqlLayout.Command
