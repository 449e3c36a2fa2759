import Mathlib.Tactic.Lemma
import SqlLayout.Files.Tree

/-!
# What a write changes

Writing a file changes what stands at one place and nothing else: no other file, and no directory, since
the way to the place leads through directories that are there already.
-/

namespace SqlLayout.FileTree

variable {tree after : FileTree} {place other : Place} {content : Bytes}

/-! ### Entries -/

/-- The way to a place leads through directories. -/
def Reached (tree : FileTree) (place : Place) : Prop :=
  ∀ q, q <+: place → q ≠ place → tree.entry? q = some .directory

lemma Reached.step (h : tree.Reached place) (hdir : tree.entry? place = some .directory) (part : Bytes) :
    tree.Reached (place ++ [part]) := by
  intro q hq hne
  rcases List.prefix_concat_iff.mp hq with heq | hq
  · exact absurd heq hne
  · by_cases hplace : q = place
    · exact hplace ▸ hdir
    · exact h q hq hplace

lemma Reached.above (h : tree.Reached place) (hdir : tree.entry? place = some .directory) :
    tree.Reached (above place) := by
  rw [FileTree.above]
  split
  · next hnil =>
    obtain rfl := List.getLast?_eq_none_iff.mp hnil
    exact h.step hdir up
  · next last hlast =>
    split
    · exact h.step hdir up
    · split
      · exact h
      · intro q hq hne
        refine h q (hq.trans (List.dropLast_prefix _)) ?_
        rintro rfl
        have hle := hq.length_le
        have hpos := List.length_pos_of_mem (List.mem_of_getLast? hlast)
        rw [List.length_dropLast] at hle
        omega

lemma Reached.follow {parts : List Bytes} (h : tree.Reached other) (hfollow : tree.follow other parts = .ok place) :
    tree.Reached place := by
  induction parts generalizing other with
  | nil =>
    obtain rfl := Except.ok.inj hfollow
    exact h
  | cons part parts ih =>
    rw [FileTree.follow] at hfollow
    split at hfollow
    · next hdir =>
      split at hfollow
      · simp at hfollow
      · refine ih ?_ hfollow
        split
        · exact h.above hdir
        · exact h.step hdir part
    · simp at hfollow
    · simp at hfollow

end SqlLayout.FileTree
