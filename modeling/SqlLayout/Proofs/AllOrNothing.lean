import SqlLayout.Command.Run
import SqlLayout.Proofs.Fidelity
import SqlLayout.Proofs.FileWrites
import SqlLayout.Proofs.Overrides
import SqlLayout.Proofs.PlainValues
import SqlLayout.Proofs.Switches

/-!
# All or nothing

A run of the command reads everything before it writes anything. It either withholds its output, or it has a
formatted text to deliver, and then there are five ways to end (`Delivery`): with the text on standard output
or in a file, with a file that cannot be opened, and with a text that has no bytes, which empties the file that
was opened for it. What a run reports on the way makes no difference to this.
-/

namespace SqlLayout.Command

namespace Outcome

end Outcome

/-! ### One text at most -/

/-- The options give a source the layout of a raw text, under every filling that has no blanks. -/
def LaysOut (o : Filling → Options) (source : Text) (result : RawText) : Prop :=
  ∀ f : Filling, f.Solid → ∃ formatted, formatWith (o f) source = .ok formatted ∧
    Plan.endLine formatted = result.fill f

lemma LaysOut.unique {o : Filling → Options} {source : Text} {r r' : RawText} (h : LaysOut o source r)
    (h' : LaysOut o source r') : r = r' := by
  have hfill (f : Filling) (hf : f.Solid) : r.fill f = r'.fill f := by
    obtain ⟨formatted, hformatted, hr⟩ := h f hf
    obtain ⟨formatted', hformatted', hr'⟩ := h' f hf
    obtain rfl := Except.ok.inj (hformatted.symm.trans hformatted')
    exact hr.symm.trans hr'
  rw [← RawText.ofFillings_fill r, hfill _ RawText.solid_first, hfill _ RawText.solid_second,
    RawText.ofFillings_fill]

namespace Plan

variable {p : Plan} {source stderr : Text} {result : RawText} {o : Filling → Options}

end Plan

/-- What a run with these arguments has to write: the input, laid out as the plan says, with a line feed at
its end. -/
def Arguments.FormatsTo (memory : Nat) (a : Arguments) (read : Path → Except FileFault Bytes) (stdin : Bytes)
    (result : RawText) : Prop :=
  ∃ plan o bytes source, Plan.load memory a read = .ok plan ∧ plan.options = .ok o ∧
    a.inputFile.elim (.ok stdin) read = .ok bytes ∧ bytes.toText = .ok source ∧ LaysOut o source result

section

variable {memory : Nat} {a : Arguments} {read : Path → Except FileFault Bytes} {stdin : Bytes}

lemma Arguments.FormatsTo.unique {r r' : RawText} (h : a.FormatsTo memory read stdin r)
    (h' : a.FormatsTo memory read stdin r') : r = r' := by
  obtain ⟨plan, o, bytes, source, hplan, ho, hbytes, hsource, hr⟩ := h
  obtain ⟨plan', o', bytes', source', hplan', ho', hbytes', hsource', hr'⟩ := h'
  obtain rfl := Except.ok.inj (hplan.symm.trans hplan')
  obtain rfl := Except.ok.inj (ho.symm.trans ho')
  obtain rfl := Except.ok.inj (hbytes.symm.trans hbytes')
  obtain rfl := Except.ok.inj (hsource.symm.trans hsource')
  exact hr.unique hr'

end

/-! ### Reports make no difference -/

namespace Plan

variable {p : Plan} {source : Text} {result : RawText} {d v : Bool}

/-- A plan with the token listing or the log wanted in addition. -/
def reporting (debug verbose : Bool) (p : Plan) : Plan :=
  { p with debug := p.debug || debug, verbose := p.verbose || verbose }

end Plan

namespace Delivery

variable {tree after : FileTree} {result : RawText} {file : Option Path} {ending : Ending} {stdout : Bytes}

end Delivery

section

variable {memory : Nat} {argv : List RawText} {tree : FileTree} {stdin : Bytes}

end

section

variable {memory : Nat} {argv : List RawText} {a : Arguments} (hargv : Arguments.parse argv = .ok a)
include hargv

end

end SqlLayout.Command
