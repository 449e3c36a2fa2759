import Mathlib.Data.List.DropRight
import SqlLayout.Proofs.Ink
import SqlLayout.Proofs.LastLine

/-!
# A page and its text

A page is kept in chunks, and its end is trimmed and measured chunk by chunk. None of this can be seen
from outside: whatever is done to a page, it holds the text to which the same was done as a whole, and
its last line is as long as that of this text. No chunk is ever empty, so that trimming always finds the
end of the text in the chunk where it stops.
-/

namespace SqlLayout

/-! ### The last line in chunks -/

namespace Page

lemma openLength_eq (chunks : List Text) :
    openLength chunks = (Text.lastLine chunks.reverse.flatten).length := by
  induction chunks with
  | nil => rfl
  | cons c cs ih =>
    rw [List.reverse_cons, List.flatten_concat, openLength, Text.length_takeWhile_reverse]
    by_cases hc : '\n' ∈ c
    · rw [if_pos (List.contains_iff_mem.mpr hc), Text.lastLine_append_of_mem hc]
    · rw [if_neg (fun h => hc (List.contains_iff_mem.mp h)), Text.lastLine_append_of_not_mem hc, ih,
        Text.lastLine_of_not_mem hc, List.length_append, Nat.add_comm]

lemma lastLineLength_eq (p : Page) : p.lastLineLength = (Text.lastLine p.text).length :=
  openLength_eq p.chunks

end Page

/-! ### Changing a page and a text side by side -/

/-- What can be done to the end of a page, or of a text. -/
inductive Change where
  | append (t : Text)
  | trimEnd

def Page.change (p : Page) : Change → Page
  | .append t => p.append t
  | .trimEnd => p.trimEnd

def Text.change (t : Text) : Change → Text
  | .append u => t ++ u
  | .trimEnd => t.rdropWhile isBlank

namespace Page

/-- A page without empty chunks holds a text. -/
structure Holds (p : Page) (t : Text) : Prop where
  text : p.text = t
  full : [] ∉ p.chunks

lemma holds_empty : empty.Holds [] := ⟨rfl, List.not_mem_nil⟩

lemma full_cons {c : Text} (hc : ¬c.isEmpty = true) {cs : List Text} (h : [] ∉ cs) : [] ∉ c :: cs := by
  rw [List.mem_cons, not_or]
  exact ⟨fun hnil => hc (by rw [← hnil]; rfl), h⟩

lemma full_append {p : Page} (h : [] ∉ p.chunks) (t : Text) : [] ∉ (p.append t).chunks := by
  rw [append]
  split
  · exact h
  · next ht => exact full_cons ht h

/-- Trimming goes on while a chunk has nothing left, so that the chunk where it stops is not empty. -/
lemma full_trimChunks {chunks : List Text} (h : [] ∉ chunks) : [] ∉ trimChunks chunks := by
  induction chunks with
  | nil => exact h
  | cons c cs ih =>
    have hcs : [] ∉ cs := fun hmem => h (List.mem_cons_of_mem c hmem)
    rw [trimChunks]
    split
    · exact ih hcs
    · next hkept => exact full_cons hkept hcs

lemma Holds.change {p : Page} {t : Text} (h : p.Holds t) (c : Change) :
    (p.change c).Holds (t.change c) := by
  cases c with
  | append u => exact ⟨by rw [Page.change, text_append, h.text, Text.change], full_append h.full u⟩
  | trimEnd =>
    have htrim : Text.trimEnd t = t.rdropWhile Text.isBlank := rfl
    exact ⟨by rw [Page.change, text_trimEnd, h.text, htrim, Text.change], full_trimChunks h.full⟩

lemma Holds.changes {p : Page} {t : Text} (h : p.Holds t) (cs : List Change) :
    (cs.foldl Page.change p).Holds (cs.foldl Text.change t) := by
  induction cs generalizing p t with
  | nil => exact h
  | cons c cs ih => exact ih (h.change c)

end Page

/-- Whatever is added to a page and trimmed from it, the page reads as the text to which the same is
done. Its last line is all of this text if there is no line feed in it, and otherwise what stands behind
the last one; and no chunk of it is empty. -/
theorem page_reads_as_text (cs : List Change) :
    let p := cs.foldl Page.change Page.empty
    let t := cs.foldl Text.change []
    p.text = t ∧ ('\n' ∉ t → p.lastLineLength = t.length) ∧
      (∀ before line, t = before ++ '\n' :: line → '\n' ∉ line → p.lastLineLength = line.length) ∧
      ∀ chunk ∈ p.chunks, chunk ≠ [] := by
  intro p t
  have hholds : p.Holds t := Page.holds_empty.changes cs
  have hlength : p.lastLineLength = (Text.lastLine t).length := by rw [p.lastLineLength_eq, hholds.text]
  refine ⟨hholds.text, ?_, ?_, ?_⟩
  · intro hnone
    rw [hlength, Text.lastLine_of_not_mem hnone]
  · intro before line ht hline
    rw [hlength, ht, Text.lastLine_append_of_mem List.mem_cons_self, Text.lastLine_feed,
      Text.lastLine_of_not_mem hline]
  · intro chunk hchunk hnil
    exact hholds.full (hnil ▸ hchunk)

theorem page_reads_as_text_across_chunks :
    ∃ p q : Page,
      p = [.append "a\nb".toList, .append [' '], .append "\t\n".toList, .trimEnd, .append [],
        .append "cd".toList].foldl Page.change Page.empty ∧
      q = [.append "ab".toList, .append "c \n".toList, .append [' '], .trimEnd].foldl Page.change Page.empty ∧
      p.text = "a\nbcd".toList ∧ p.lastLineLength = 3 ∧ [] ∉ p.chunks ∧
      q.text = "abc".toList ∧ q.lastLineLength = 3 := by
  have hp := page_reads_as_text [.append "a\nb".toList, .append [' '], .append "\t\n".toList, .trimEnd,
    .append [], .append "cd".toList]
  have hq := page_reads_as_text [.append "ab".toList, .append "c \n".toList, .append [' '], .trimEnd]
  refine ⟨_, _, rfl, rfl, hp.1, ?_, fun hnil => hp.2.2.2 [] hnil rfl, hq.1, ?_⟩
  · exact hp.2.2.1 ['a'] "bcd".toList (by decide) (by decide)
  · exact hq.2.1 (by decide)

end SqlLayout
