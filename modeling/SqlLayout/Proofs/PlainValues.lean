import SqlLayout.Proofs.Fillings

/-!
# Values without halves

A raw text has bytes exactly if it has no halves of surrogate pairs. Those of a formatted text come from the
values that the command line gives for placeholders: without any there, the layout is text.
-/

namespace SqlLayout

namespace RawText

variable {t : RawText}

def IsPlain (t : RawText) : Prop :=
  ∀ c ∈ t, c.isHalf = false

lemma isPlain_raw (t : Text) : IsPlain t.raw := by
  simp [IsPlain, Text.raw, CodePoint.isHalf]

end RawText

namespace Command

namespace Params

structure IsPlain (p : Params) : Prop where
  named : ∀ e ∈ p.named, e.2.IsPlain
  ordered : ∀ t, some t ∈ p.ordered → t.IsPlain

variable {p q : Params}

namespace IsPlain

lemma setNamed (h : p.IsPlain) (name : RawText) {value : RawText} (hvalue : value.IsPlain) :
    (p.setNamed name value).IsPlain := by
  rw [Params.setNamed]
  split
  · refine ⟨fun e he => ?_, h.ordered⟩
    obtain ⟨x, hx, rfl⟩ := List.mem_map.mp he
    split
    · exact hvalue
    · exact h.named x hx
  · refine ⟨fun e he => ?_, h.ordered⟩
    rcases List.mem_append.mp he with he | he
    · exact h.named e he
    · obtain rfl := List.mem_singleton.mp he
      exact hvalue

lemma push (h : p.IsPlain) {v : Option RawText} (hv : ∀ t, v = some t → t.IsPlain) :
    IsPlain { p with ordered := p.ordered ++ [v] } := by
  refine ⟨h.named, fun t ht => ?_⟩
  rcases List.mem_append.mp ht with ht | ht
  · exact h.ordered t ht
  · exact hv t (List.mem_singleton.mp ht).symm

lemma addEntries {entries : Toml.Entries} (h : p.IsPlain) (hq : p.addEntries entries = .ok q) : q.IsPlain := by
  induction entries generalizing p with
  | nil => exact Except.ok.inj hq ▸ h
  | cons e entries ih =>
    rw [Params.addEntries] at hq
    split at hq
    · simp at hq
    · exact ih (h.setNamed _ (RawText.isPlain_raw _)) hq

end IsPlain

lemma isPlain_of_parseParam {t value : RawText} {name : Option RawText} (ht : t.IsPlain)
    (h : parseParam t = .ok (name, value)) : value.IsPlain := by
  rw [parseParam, Argument.atEquals] at h
  split at h
  · obtain ⟨-, rfl⟩ := Prod.mk.inj (Except.ok.inj h)
    exact ht
  · next heq =>
    split at h
    · simp at h
    · obtain ⟨-, rfl⟩ := Prod.mk.inj (Except.ok.inj h)
      have htail := (Prod.mk.inj heq).2
      generalize hdrop : t.drop _ = u at htail
      cases u with
      | nil => cases htail
      | cons d u =>
        obtain rfl := Option.some.inj htail
        exact fun c hc => ht c (List.mem_of_mem_drop (hdrop ▸ List.mem_cons_of_mem d hc))

lemma IsPlain.addArguments {ts : List (Option RawText)} (h : p.IsPlain) (hts : ∀ t, some t ∈ ts → t.IsPlain)
    (hq : p.addArguments ts = .ok q) : q.IsPlain := by
  induction ts generalizing p with
  | nil => exact Except.ok.inj hq ▸ h
  | cons v ts ih =>
    have hrest (t : RawText) (ht : some t ∈ ts) : t.IsPlain := hts t (List.mem_cons_of_mem _ ht)
    cases v with
    | none =>
      rw [Params.addArguments] at hq
      exact ih (h.push (by simp)) hrest hq
    | some t =>
      have ht := hts t List.mem_cons_self
      rw [Params.addArguments] at hq
      split at hq
      · simp at hq
      · next value hvalue =>
        refine ih (h.push ?_) hrest hq
        rintro _ ⟨⟩
        exact isPlain_of_parseParam ht hvalue
      · next name value hvalue => exact ih (h.setNamed name (isPlain_of_parseParam ht hvalue)) hrest hq

end Params

end Command

end SqlLayout
