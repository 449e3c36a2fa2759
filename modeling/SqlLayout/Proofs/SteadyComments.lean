import SqlLayout.Proofs.Margins
import SqlLayout.Proofs.StrayTokens

/-!
# Comments that stay in place

Moving a comment to the indentation where it stands should leave it alone. The margin of its lines is made
of spaces and tabs, but a line is written empty if it has blanks of any kind only. So a line of other
blanks, such as a lone carriage return, counts for the margin the first time and not the second time: if
it cuts the margin of the lines with ink short, these move once more. Then no such line is left.
-/

namespace SqlLayout

namespace Comment

/-! ### Lines that keep the margin -/

/-- Spaces and tabs that every line with ink begins with. -/
def SharedMargin (ls : List Text) (m : Text) : Prop :=
  m.all isMargin = true ∧ ∀ l ∈ ls, l.isAllBlank = false → m <+: l

/-- A line of blanks that holds others than spaces and tabs takes no part of the margin away from the
lines with ink. -/
def KeepsMargin (ls : List Text) (l : Text) : Prop :=
  l.isAllBlank = true → l.all isMargin = false → ∀ m, SharedMargin ls m → m <+: l

section

variable {ls : List Text} (hink : ∃ l ∈ ls, l.isAllBlank = false)
include hink

lemma sharedMargin_iff {m : Text} :
    SharedMargin ls m ↔ m <+: margin (ls.filter fun l => !l.isAllBlank) := by
  have hcontent : ∃ l ∈ ls.filter fun l => !l.isAllBlank, l.all isMargin = false := by
    obtain ⟨l, hl, hl'⟩ := hink
    exact ⟨l, List.mem_filter.mpr ⟨hl, by simp [hl']⟩, not_isMargin_of_ink hl'⟩
  rw [prefix_margin_iff hcontent, SharedMargin]
  refine and_congr_right fun _ => ⟨fun h l hl _ => ?_, fun h l hl hl' => ?_⟩
  · obtain ⟨hl, hl'⟩ := List.mem_filter.mp hl
    exact h l hl (by simpa using hl')
  · exact h l (List.mem_filter.mpr ⟨hl, by simp [hl']⟩) (not_isMargin_of_ink hl')

/-- Leaving out the lines without ink changes the margin only if one of them has cut it short. -/
lemma margin_filter_eq_iff :
    margin (ls.filter fun l => !l.isAllBlank) = margin ls ↔ ∀ l ∈ ls, KeepsMargin ls l := by
  have hcontent : ∃ l ∈ ls, l.all isMargin = false :=
    hink.imp fun l hl => ⟨hl.1, not_isMargin_of_ink hl.2⟩
  have hmargin := (prefix_margin_iff hcontent).mp (List.prefix_refl (margin ls))
  have hshort : margin ls <+: margin (ls.filter fun l => !l.isAllBlank) :=
    (sharedMargin_iff hink).mp ⟨hmargin.1, fun l hl hl' => hmargin.2 l hl (not_isMargin_of_ink hl')⟩
  constructor
  · intro heq l hl _ hc m hm
    have hm' : m <+: margin ls := heq ▸ (sharedMargin_iff hink).mp hm
    exact hm'.trans (hmargin.2 l hl hc)
  · intro hkeeps
    have hshared : SharedMargin ls (margin (ls.filter fun l => !l.isAllBlank)) :=
      (sharedMargin_iff hink).mpr (List.prefix_refl _)
    have hlong : margin (ls.filter fun l => !l.isAllBlank) <+: margin ls := by
      refine (prefix_margin_iff hcontent).mpr ⟨hshared.1, fun l hl hc => ?_⟩
      cases hblank : l.isAllBlank with
      | true => exact hkeeps l hl hblank hc _ hshared
      | false => exact hshared.2 l hl hblank
    exact hlong.eq_of_length_le hshort.length_le

end

/-! ### Moving a comment again -/

section

variable {ind x : Text} (hind : ind.all isMargin = true)
include hind

lemma reindent_again_iff (hx : IsBlockComment x) :
    reindent ind (reindent ind x) = reindent ind x ↔
      ∀ l ∈ (Text.lines x).2, KeepsMargin (Text.lines x).2 l := by
  rw [reindent_reindent_iff hind hx]
  by_cases hlater : (Text.lines x).2 = []
  · simp [hlater]
  · exact margin_filter_eq_iff (hx.exists_ink_of_lines hlater)

lemma eq_nil_of_mem_moved {ls : List Text} {l : Text} (hl : l ∈ moved ind ls) (hblank : l.isAllBlank = true) :
    l = [] := by
  rw [moved_eq hind] at hl
  obtain ⟨k, hk, rfl⟩ := List.mem_map.mp hl
  cases hink : k.isAllBlank with
  | true => exact movedLine_of_blank hink
  | false =>
    rw [movedLine_of_ink hink, Text.isAllBlank_append, isAllBlank_trimEnd, ink_drop_margin hk hink] at hblank
    simp at hblank

lemma reindent_third (hx : IsBlockComment x) :
    reindent ind (reindent ind (reindent ind x)) = reindent ind (reindent ind x) := by
  rw [reindent_again_iff hind (isBlockComment_reindent (isAllBlank_of_isMargin hind) hx)]
  intro l hl hblank hcontent
  rw [lines_reindent hind] at hl
  rw [eq_nil_of_mem_moved hind hl hblank] at hcontent
  simp at hcontent

end

end Comment

/-- A block comment that was read in any dialect and moved to an indentation of spaces and tabs stays as
it is when it is moved there again exactly if each of its later lines keeps the margin: a line of blanks
with others than spaces and tabs among them begins with all the spaces and tabs that the lines with ink
have in common. In any case it does not move a third time. -/
theorem comment_moves_once_iff (d : Dialect) (query : Text) (ts : List Token)
    (h : tokenize d query = .ok ts) (t : Token) (ht : t ∈ ts) (hk : t.kind = .blockComment)
    (indentation : Text) (hi : indentation.all Comment.isMargin = true) :
    let once := Comment.reindent indentation t.text
    let twice := Comment.reindent indentation once
    (twice = once ↔ ∀ l ∈ (Text.lines t.text).2, Comment.KeepsMargin (Text.lines t.text).2 l) ∧
      Comment.reindent indentation twice = twice := by
  have hcomment := isBlockComment_of_mem h ht hk
  exact ⟨Comment.reindent_again_iff hi hcomment, Comment.reindent_third hi hcomment⟩

theorem comment_moves_once_iff_of_form_feed :
    ∃ ts t, tokenize .standard "/*\n  a\n  \x0c\n   b*/".toList = .ok ts ∧ t ∈ ts ∧ t.kind = .blockComment ∧
      ['\t'].all Comment.isMargin = true ∧
      Comment.reindent ['\t'] (Comment.reindent ['\t'] t.text) = Comment.reindent ['\t'] t.text := by
  have hread : Reads Dialect.standard.lexicon .start .start ("/*\n  a\n  \x0c\n   b*/".toList ++ [])
      [Lexeme.token ⟨.blockComment, 17, none⟩ .start "/*\n  a\n  \x0c\n   b*/".toList] :=
    .cons rfl rfl (by simp) (.nil _ _)
  have hspec := comment_moves_once_iff .standard _ _ (tokensFrom_of_reads hread) _ List.mem_cons_self rfl ['\t']
    (by decide)
  refine ⟨_, _, tokensFrom_of_reads hread, List.mem_cons_self, rfl, by decide, hspec.1.mpr ?_⟩
  intro l hl hblank _ m hm
  have hshared : m <+: "  a".toList.takeWhile Comment.isMargin :=
    Comment.prefix_takeWhile_iff.mpr ⟨hm.1, hm.2 "  a".toList List.mem_cons_self rfl⟩
  change l ∈ ["  a".toList, "  \x0c".toList, "   b*/".toList] at hl
  simp only [List.mem_cons, List.not_mem_nil, or_false] at hl
  rcases hl with rfl | rfl | rfl
  · exact absurd hblank (by decide)
  · exact hshared.trans ⟨['\x0c'], rfl⟩
  · exact absurd hblank (by decide)

/-- A carriage return alone on its line hides the margin of the other lines, but only once. -/
theorem comment_moves_twice_behind_return :
    ∃ ts t, tokenize .standard "/* a\r\n\r\n   b */".toList = .ok ts ∧ t ∈ ts ∧ t.kind = .blockComment ∧
      Comment.reindent [] (Comment.reindent [] t.text) ≠ Comment.reindent [] t.text := by
  have hread : Reads Dialect.standard.lexicon .start .start ("/* a\r\n\r\n   b */".toList ++ [])
      [Lexeme.token ⟨.blockComment, 15, none⟩ .start "/* a\r\n\r\n   b */".toList] :=
    .cons rfl rfl (by simp) (.nil _ _)
  exact ⟨_, _, tokensFrom_of_reads hread, List.mem_cons_self, rfl, by decide⟩

end SqlLayout
