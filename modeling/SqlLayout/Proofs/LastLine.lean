import Mathlib.Data.List.Induction
import Mathlib.Tactic.Lemma
import SqlLayout.Position
import SqlLayout.Text.Lines

/-!
# The last line

The end of a text lies in its last line, the one behind the last line feed. Editors and error reports
both name a place by the number of its line and by what stands before it there.
-/

namespace SqlLayout

namespace Text

/-- What stands behind the last line feed of a text, or all of a text that has none. -/
def lastLine : Text → Text
  | [] => []
  | c :: cs => if '\n' ∈ c :: cs then lastLine cs else c :: cs

lemma lastLine_of_not_mem {t : Text} (h : '\n' ∉ t) : lastLine t = t := by
  cases t with
  | nil => rfl
  | cons c cs => rw [lastLine, if_neg h]

@[simp] lemma lastLine_feed (t : Text) : lastLine ('\n' :: t) = lastLine t := by
  rw [lastLine, if_pos List.mem_cons_self]

lemma lastLine_cons_of_mem (c : Char) {t : Text} (h : '\n' ∈ t) : lastLine (c :: t) = lastLine t := by
  rw [lastLine, if_pos (List.mem_cons_of_mem c h)]

lemma lastLine_append_of_mem {b : Text} (h : '\n' ∈ b) (a : Text) : lastLine (a ++ b) = lastLine b := by
  induction a with
  | nil => rfl
  | cons c a ih => rw [List.cons_append, lastLine_cons_of_mem c (List.mem_append_right a h), ih]

lemma lastLine_append_of_not_mem {b : Text} (h : '\n' ∉ b) (a : Text) :
    lastLine (a ++ b) = lastLine a ++ b := by
  induction a with
  | nil => exact lastLine_of_not_mem h
  | cons c a ih =>
    rw [List.cons_append, lastLine, lastLine]
    have hmem : '\n' ∈ c :: (a ++ b) ↔ '\n' ∈ c :: a := by simp [h]
    by_cases hc : '\n' ∈ c :: a
    · rw [if_pos (hmem.mpr hc), if_pos hc, ih]
    · rw [if_neg (fun hcb => hc (hmem.mp hcb)), if_neg hc, List.cons_append]

lemma length_takeWhile_reverse (t : Text) :
    (t.reverse.takeWhile (· ≠ '\n')).length = (lastLine t).length := by
  induction t using List.reverseRecOn with
  | nil => rfl
  | append_singleton t c ih =>
    rw [List.reverse_concat, List.takeWhile_cons]
    by_cases hc : c = '\n'
    · subst hc
      rw [lastLine_append_of_mem (List.mem_singleton.mpr rfl), lastLine_feed]
      rfl
    · rw [lastLine_append_of_not_mem (by simpa using Ne.symm hc), if_pos (by simpa using hc), List.length_cons,
        ih, List.length_append, List.length_singleton]

lemma length_lastLine_le (t : Text) : (lastLine t).length ≤ t.length := by
  induction t with
  | nil => exact Nat.le_refl _
  | cons c t ih =>
    rw [lastLine]
    split
    · exact Nat.le_succ_of_le ih
    · exact Nat.le_refl _

lemma lines_eq (t : Text) :
    (lines t).2.length = t.count '\n' ∧ (lines t).2.getLastD (lines t).1 = lastLine t := by
  induction t with
  | nil => exact ⟨rfl, rfl⟩
  | cons c t ih =>
    obtain ⟨hcount, hlast⟩ := ih
    have hlines : lines (c :: t) = if c = '\n' then ([], (lines t).1 :: (lines t).2)
        else (c :: (lines t).1, (lines t).2) := rfl
    rw [hlines]
    by_cases hc : c = '\n'
    · subst hc
      rw [if_pos rfl, lastLine_feed, List.count_cons_self, List.length_cons, hcount, List.getLastD_cons]
      exact ⟨rfl, hlast⟩
    · rw [if_neg hc, List.count_cons_of_ne hc]
      refine ⟨hcount, ?_⟩
      by_cases h : '\n' ∈ t
      · have hlater : (lines t).2 ≠ [] := by
          rw [← List.length_pos_iff, hcount]
          exact List.count_pos_iff.mpr h
        obtain ⟨l, ls, hl⟩ := List.exists_cons_of_ne_nil hlater
        rw [lastLine_cons_of_mem c h, ← hlast]
        simp only [hl, List.getLastD_cons]
      · have hlater : (lines t).2 = [] := by
          rw [← List.length_eq_zero_iff, hcount]
          exact List.count_eq_zero.mpr h
        rw [hlater, List.getLastD_nil, lastLine_of_not_mem h] at hlast
        rw [lastLine_of_not_mem (by simp [h, Ne.symm hc]), hlater]
        exact congrArg (c :: ·) hlast

end Text

/-- Counting through a text: every line feed begins a line, and the columns begin anew with it. -/
lemma Position.advance_eq (p : Position) (t : Text) :
    p.advance t =
      ⟨p.line + t.count '\n',
        (if '\n' ∈ t then 1 else p.column) + (Text.lastLine t).length, p.offset + t.length⟩ := by
  induction t generalizing p with
  | nil => rfl
  | cons c t ih =>
    have hstep : p.advance (c :: t) = (p.next c).advance t := rfl
    rw [hstep, ih, next]
    by_cases hc : c = '\n'
    · subst hc
      simp [Nat.add_assoc, Nat.add_comm 1]
    · by_cases h : '\n' ∈ t
      · simp [hc, h, Text.lastLine_cons_of_mem c h, Nat.add_assoc, Nat.add_comm 1]
      · have h' : '\n' ∉ c :: t := by simp [h, Ne.symm hc]
        rw [Text.lastLine_of_not_mem h, Text.lastLine_of_not_mem h', if_neg hc, if_neg h, if_neg h']
        simp [hc, Nat.add_assoc, Nat.add_comm 1]

lemma Position.advance_start_eq (t : Text) :
    Position.start.advance t = ⟨1 + t.count '\n', 1 + (Text.lastLine t).length, t.length⟩ := by
  rw [advance_eq]
  simp [start]

end SqlLayout
