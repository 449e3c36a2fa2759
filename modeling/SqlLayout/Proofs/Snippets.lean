import Mathlib.Data.List.DropRight
import SqlLayout.Proofs.LastLine
import SqlLayout.Proofs.Reading
import SqlLayout.Report

/-!
# Snippets

A report on a text that cannot be read shows a line of the source with carets under it. The place of the
fault counts lines by line feeds, and the line is looked up among those that show on paper.
`report_points_at_fault_iff` says when the two agree: if each break in front of the fault is a line feed,
alone or behind a carriage return.
-/

namespace SqlLayout

namespace Text

/-- Whether the lines on paper are the lines between line feeds: every character that ends a line on paper
is a line feed, or a carriage return in front of one. -/
def breaksAtFeeds : Text → Bool
  | [] => true
  | '\r' :: '\n' :: cs => breaksAtFeeds cs
  | c :: cs => (c == '\n' || !isLineBreak c) && breaksAtFeeds cs

lemma feed_ne {c : Char} (hc : isLineBreak c = false) : '\n' ≠ c := by
  rintro rfl
  simp [isLineBreak] at hc

lemma isBlank_of_isLineBreak {c : Char} (h : isLineBreak c = true) : isBlank c = true := by
  simp only [isLineBreak, isBlank, Bool.or_eq_true, Bool.and_eq_true, decide_eq_true_eq,
    beq_iff_eq] at h ⊢
  omega

/-! ### Lines on paper -/

section

variable {c : Char} {t : Text}

lemma shownLines_break (hc : isLineBreak c = true) (hpair : c = '\r' → t.head? ≠ some '\n') :
    shownLines (c :: t) = [c] :: shownLines t := by
  rw [shownLines.eq_def]
  split
  · next h => simp at h
  · next cs h =>
    obtain ⟨rfl, rfl⟩ := List.cons.inj h
    exact absurd rfl (hpair rfl)
  · next d cs _ h =>
    obtain ⟨rfl, rfl⟩ := List.cons.inj h
    rw [if_pos hc]

lemma shownLines_ne_nil (ht : t ≠ []) : shownLines t ≠ [] := by
  rw [shownLines.eq_def]
  split
  · exact absurd rfl ht
  · simp
  · split
    · simp
    · split <;> simp

lemma shownLines_cons (hc : isLineBreak c = false) (ht : t ≠ []) :
    ∃ l ls, shownLines t = l :: ls ∧ shownLines (c :: t) = (c :: l) :: ls := by
  obtain ⟨l, ls, hl⟩ := List.exists_cons_of_ne_nil (shownLines_ne_nil ht)
  refine ⟨l, ls, hl, ?_⟩
  rw [shownLines.eq_def]
  split
  · next h => simp at h
  · next cs h =>
    obtain ⟨rfl, -⟩ := List.cons.inj h
    simp [isLineBreak] at hc
  · next d cs _ h =>
    obtain ⟨rfl, rfl⟩ := List.cons.inj h
    simp only [hc, hl]
    rfl

lemma shownLines_pair (t : Text) : shownLines ('\r' :: '\n' :: t) = ['\r', '\n'] :: shownLines t := rfl

end

section

variable {d : Char} {before rest : Text}

lemma shownLines_append (rest : Text) (hd : isLineBreak d = false) (h : breaksAtFeeds before = true) :
    ∃ ls l later, shownLines (before ++ d :: rest) = ls ++ (lastLine before ++ d :: l) :: later ∧
      ls.length = before.count '\n' ∧ ls.flatten ++ lastLine before = before := by
  fun_induction breaksAtFeeds before with
  | case1 =>
    by_cases hrest : rest = []
    · subst hrest
      exact ⟨[], [], [], by rw [List.nil_append, shownLines.eq_def]; simp [hd, shownLines, lastLine], rfl, rfl⟩
    · obtain ⟨l, ls, -, hl⟩ := shownLines_cons hd hrest
      exact ⟨[], l, ls, hl, rfl, rfl⟩
  | case2 cs ih =>
    obtain ⟨ls, l, later, hshown, hlength, hflat⟩ := ih h
    have hlast : lastLine ('\r' :: '\n' :: cs) = lastLine cs := by
      rw [lastLine_cons_of_mem _ List.mem_cons_self, lastLine_feed]
    refine ⟨['\r', '\n'] :: ls, l, later, ?_, ?_, ?_⟩
    · rw [hlast, List.cons_append, List.cons_append, shownLines_pair, hshown]
      rfl
    · rw [List.count_cons_of_ne (by decide), List.count_cons_self, List.length_cons, hlength]
    · rw [hlast, List.flatten_cons, List.append_assoc, hflat]
      rfl
  | case3 c cs hpair ih =>
    rw [Bool.and_eq_true, Bool.or_eq_true, beq_iff_eq, Bool.not_eq_true'] at h
    obtain ⟨ls, l, later, hshown, hlength, hflat⟩ := ih h.2
    rcases h.1 with rfl | hc
    · refine ⟨['\n'] :: ls, l, later, ?_, ?_, ?_⟩
      · rw [lastLine_feed, List.cons_append, shownLines_break (by decide) (by simp), hshown]
        rfl
      · rw [List.count_cons_self, List.length_cons, hlength]
      · rw [lastLine_feed, List.flatten_cons, List.append_assoc, hflat]
        rfl
    · obtain ⟨k, ks, hk, hck⟩ := shownLines_cons hc (t := cs ++ d :: rest) (by simp)
      have hne : c ≠ '\n' := (feed_ne hc).symm
      rw [hshown] at hk
      rw [List.cons_append, hck, List.count_cons_of_ne hne]
      -- the character goes to the first line, which is the line of the place only without a line feed
      cases ls with
      | nil =>
        have hfeed : '\n' ∉ cs := List.count_eq_zero.mp hlength.symm
        obtain ⟨rfl, rfl⟩ := List.cons.inj hk
        rw [lastLine_of_not_mem hfeed, lastLine_of_not_mem (by simp [hfeed, hne.symm])]
        exact ⟨[], l, later, rfl, hlength, rfl⟩
      | cons m ms =>
        have hfeed : '\n' ∈ cs := List.count_pos_iff.mp (hlength ▸ Nat.succ_pos _)
        obtain ⟨rfl, rfl⟩ := List.cons.inj hk
        rw [lastLine_cons_of_mem c hfeed]
        exact ⟨(c :: m) :: ms, l, later, rfl, hlength, congrArg (c :: ·) hflat⟩

lemma shownLines_break_append (hd : isLineBreak d = false) {c : Char} (hc : isLineBreak c = true)
    (hpair : ∀ cs, c = '\r' → before = '\n' :: cs → False) :
    shownLines (c :: (before ++ d :: rest)) = [c] :: shownLines (before ++ d :: rest) := by
  refine shownLines_break hc fun hr hhead => ?_
  cases before with
  | nil =>
    obtain rfl : d = '\n' := by simpa using hhead
    simp [isLineBreak] at hd
  | cons b cs =>
    obtain rfl : b = '\n' := by simpa using hhead
    exact hpair cs hr rfl

lemma length_take_shownLines_lt (rest : Text) (hd : isLineBreak d = false) {n : Nat}
    (hn : n < before.count '\n') :
    ((shownLines (before ++ d :: rest)).take n).flatten.length + (lastLine before).length <
      before.length := by
  fun_induction breaksAtFeeds before generalizing n with
  | case1 => simp at hn
  | case2 cs ih =>
    have hcs := length_lastLine_le cs
    rw [lastLine_cons_of_mem _ List.mem_cons_self, lastLine_feed]
    rw [List.count_cons_of_ne (by decide), List.count_cons_self] at hn
    simp only [List.cons_append, shownLines_pair, List.length_cons]
    cases n with
    | zero =>
      simp only [List.take_zero, List.flatten_nil, List.length_nil]
      omega
    | succ n =>
      have hlt := ih (n := n) (by omega)
      simp only [List.take_succ_cons, List.flatten_cons, List.length_append, List.length_cons,
        List.length_nil]
      omega
  | case3 c cs hpair ih =>
    have hcs := length_lastLine_le cs
    rw [lastLine, if_pos (List.count_pos_iff.mp (Nat.zero_lt_of_lt hn))]
    cases n with
    | zero =>
      simp only [List.take_zero, List.flatten_nil, List.length_nil, List.length_cons]
      omega
    | succ n =>
      by_cases hc : isLineBreak c = true
      · have hcount : (c :: cs).count '\n' ≤ cs.count '\n' + 1 := by
          rw [List.count_cons]
          split <;> omega
        have hlt := ih (n := n) (by omega)
        simp only [List.cons_append, shownLines_break_append hd hc hpair, List.take_succ_cons,
          List.flatten_cons, List.length_append, List.length_cons, List.length_nil]
        omega
      · rw [Bool.not_eq_true] at hc
        have hne : c ≠ '\n' := (feed_ne hc).symm
        obtain ⟨k, ks, hk, hck⟩ := shownLines_cons hc (t := cs ++ d :: rest) (by simp)
        have hlt := ih (n := n + 1) (by rwa [List.count_cons_of_ne hne] at hn)
        simp only [hk, List.take_succ_cons, List.flatten_cons, List.length_append] at hlt
        simp only [List.cons_append, hck, List.take_succ_cons, List.flatten_cons, List.length_append,
          List.length_cons]
        omega

/-- Behind a break that is no line feed, the line on paper with the number of a place ends with the break,
or it begins before the line of the place does. -/
lemma length_le_lastLine_of_break (hd : isLineBreak d = false) {c : Char} (hc : isLineBreak c = true)
    (hfeed : c ≠ '\n') (hpair : ∀ cs, c = '\r' → before = '\n' :: cs → False) {l : Text}
    (hl : (shownLines (c :: (before ++ d :: rest)))[before.count '\n']? = some l)
    (hstart : ((shownLines (c :: (before ++ d :: rest))).take (before.count '\n')).flatten.length +
      (lastLine (c :: before)).length = (c :: before).length) :
    l.length ≤ (lastLine (c :: before)).length := by
  rw [shownLines_break_append hd hc hpair] at hl hstart
  cases hn : before.count '\n' with
  | zero =>
    have hnone : '\n' ∉ c :: before := by simp [List.count_eq_zero.mp hn, Ne.symm hfeed]
    rw [hn, List.getElem?_cons_zero, Option.some.injEq] at hl
    rw [lastLine_of_not_mem hnone, ← hl]
    simp
  | succ n =>
    exfalso
    have hmem : '\n' ∈ before := List.count_pos_iff.mp (by omega)
    have hlt := length_take_shownLines_lt rest hd (show n < before.count '\n' by omega)
    rw [lastLine_cons_of_mem c hmem] at hstart
    simp only [hn, List.take_succ_cons, List.flatten_cons, List.length_append, List.length_cons,
      List.length_nil] at hstart
    omega

lemma breaksAtFeeds_of_reaches (hd : isLineBreak d = false) {l : Text}
    (hl : (shownLines (before ++ d :: rest))[before.count '\n']? = some l)
    (hstart : ((shownLines (before ++ d :: rest)).take (before.count '\n')).flatten.length +
      (lastLine before).length = before.length)
    (hreach : (lastLine before).length < l.length) : breaksAtFeeds before = true := by
  fun_induction breaksAtFeeds before generalizing l with
  | case1 => rfl
  | case2 cs ih =>
    have hcount : ('\r' :: '\n' :: cs).count '\n' = cs.count '\n' + 1 := by
      rw [List.count_cons_of_ne (by decide), List.count_cons_self]
    rw [lastLine_cons_of_mem _ List.mem_cons_self, lastLine_feed] at hstart hreach
    simp only [List.cons_append, shownLines_pair, hcount, List.take_succ_cons, List.flatten_cons,
      List.length_append, List.length_cons, List.getElem?_cons_succ, List.length_nil] at hl hstart
    exact ih hl (by omega) hreach
  | case3 c cs hpair ih =>
    rw [Bool.and_eq_true, Bool.or_eq_true, beq_iff_eq, Bool.not_eq_true']
    by_cases hc : isLineBreak c = true
    · by_cases hfeed : c = '\n'
      · subst hfeed
        rw [lastLine_feed] at hstart hreach
        simp only [List.cons_append, shownLines_break_append hd hc hpair, List.count_cons_self,
          List.take_succ_cons, List.flatten_cons, List.length_append, List.length_cons, List.length_nil,
          List.getElem?_cons_succ] at hl hstart
        exact ⟨.inl rfl, ih hl (by omega) hreach⟩
      · rw [List.count_cons_of_ne hfeed, List.cons_append] at hl hstart
        exact absurd (length_le_lastLine_of_break hd hc hfeed hpair hl hstart) (Nat.not_le.mpr hreach)
    · rw [Bool.not_eq_true] at hc
      have hne : c ≠ '\n' := (feed_ne hc).symm
      obtain ⟨k, ks, hk, hck⟩ := shownLines_cons hc (t := cs ++ d :: rest) (by simp)
      rw [List.count_cons_of_ne hne] at hl hstart
      rw [List.cons_append, hck] at hl hstart
      rw [hk] at ih
      refine ⟨.inr hc, ?_⟩
      cases hn : cs.count '\n' with
      | zero =>
        have hmem : '\n' ∉ cs := List.count_eq_zero.mp hn
        have hnone : '\n' ∉ c :: cs := by simp [hmem, hne.symm]
        rw [hn, List.getElem?_cons_zero, Option.some.injEq] at hl
        rw [lastLine_of_not_mem hnone, ← hl, List.length_cons, List.length_cons] at hreach
        refine ih (l := k) (by rw [hn]; rfl) ?_ ?_
        · rw [hn, lastLine_of_not_mem hmem]
          simp
        · rw [lastLine_of_not_mem hmem]
          omega
      | succ n =>
        have hmem : '\n' ∈ cs := List.count_pos_iff.mp (by omega)
        rw [lastLine_cons_of_mem c hmem] at hstart hreach
        rw [hn] at hl
        simp only [hn, List.take_succ_cons, List.flatten_cons, List.length_append, List.length_cons] at hstart
        refine ih (by rw [hn]; exact hl) ?_ hreach
        simp only [hn, List.take_succ_cons, List.flatten_cons, List.length_append]
        omega

end

/-! ### A line without its break -/

lemma dropEndWhile_prefix_self (p : Char → Bool) (t : Text) : dropEndWhile p t <+: t :=
  List.rdropWhile_prefix p t

lemma dropEndWhile_append_cons {p : Char → Bool} {d : Char} (hd : p d = false) (a l : Text) :
    dropEndWhile p (a ++ d :: l) = a ++ d :: dropEndWhile p l := by
  rw [dropEndWhile, List.reverse_append, List.reverse_cons, List.append_assoc, List.dropWhile_append,
    dropEndWhile]
  cases h : l.reverse.dropWhile p with
  | nil => simp [hd]
  | cons b bs => simp

lemma not_mem_dropEndWhile_shownLines {t l : Text} (h : l ∈ shownLines t) :
    '\n' ∉ dropEndWhile (· == '\n') l := by
  have hend : ∃ body, '\n' ∉ body ∧ (l = body ∨ l = body ++ ['\n']) := by
    fun_induction shownLines t generalizing l with
    | case1 => simp at h
    | case2 cs ih =>
      rcases List.mem_cons.mp h with rfl | h
      · exact ⟨['\r'], by decide, .inr rfl⟩
      · exact ih h
    | case3 c cs _ hc ih =>
      rcases List.mem_cons.mp h with rfl | h
      · by_cases hn : c = '\n'
        · exact ⟨[], by simp, .inr (by rw [hn]; rfl)⟩
        · exact ⟨[c], by simpa using Ne.symm hn, .inl rfl⟩
      · exact ih h
    | case4 c cs _ hc hcs ih =>
      obtain rfl := List.mem_singleton.mp h
      exact ⟨[c], by simpa using feed_ne (eq_false_of_ne_true hc), .inl rfl⟩
    | case5 c cs _ hc k ks hcs ih =>
      rcases List.mem_cons.mp h with rfl | h
      · obtain ⟨body, hbody, hk⟩ := ih (l := k) (by simp [hcs])
        refine ⟨c :: body, by simpa [hbody] using feed_ne (eq_false_of_ne_true hc), ?_⟩
        exact hk.imp (congrArg (c :: ·)) (congrArg (c :: ·))
      · exact ih (by simp [hcs, h])
  obtain ⟨body, hbody, rfl | rfl⟩ := hend
  · exact fun hmem => hbody ((dropEndWhile_prefix_self _ _).subset hmem)
  · have hcut : dropEndWhile (· == '\n') (body ++ ['\n']) = dropEndWhile (· == '\n') body :=
      List.rdropWhile_concat_pos _ _ _ rfl
    rw [hcut]
    exact fun hmem => hbody ((dropEndWhile_prefix_self _ _).subset hmem)

end Text

/-! ### The place of a fault -/

lemma exists_fault_of_tokensFrom {lx : Lexicon} {ctx : Context} {p : Position} {t : Text} {e : LexError}
    (h : tokensFrom lx ctx p t = .error e) :
    ∃ before d rest, t = before ++ d :: rest ∧ Text.isBlank d = false ∧
      e.position = p.advance before := by
  induction hn : t.length using Nat.strongRecOn generalizing t ctx p with
  | _ n ih =>
    rw [tokensFrom.eq_def] at h
    split at h
    · simp at h
    · next c cs =>
      split at h
      · next fault hfault =>
        refine ⟨[], c, cs, rfl, ?_, (Except.error.inj h) ▸ rfl⟩
        cases hc : Text.isBlank c with
        | false => rfl
        | true => simp [lexeme, Text.startsBlank, hc] at hfault
      · next l hl =>
        dsimp only at h
        split at h
        · next e' he =>
          obtain rfl := Except.error.inj h
          have hlt : (cs.drop (l.size - 1)).length < n := by
            rw [← hn, List.length_drop, List.length_cons]
            omega
          obtain ⟨before, d, rest, hrest, hd, hplace⟩ := ih _ hlt he rfl
          refine ⟨c :: cs.take (l.size - 1) ++ before, d, rest, ?_, hd, ?_⟩
          · rw [List.append_assoc, ← hrest, List.cons_append, List.take_append_drop]
          · rw [hplace, Position.advance, Position.advance, Position.advance, List.foldl_append]
        · simp at h

namespace SourceReport

/-- The number of characters of a source in front of its line on paper with a given number. -/
def shownStart (source : Text) (line : Nat) : Nat :=
  ((Text.shownLines source).take (line - 1)).flatten.length

lemma not_mem_shownLine (source : Text) (line : Nat) : '\n' ∉ shownLine source line := by
  rw [shownLine]
  split
  · simp
  · cases hl : (Text.shownLines source)[line - 1]? with
    | none => simp [Text.dropEndWhile]
    | some l =>
      intro hmem
      exact Text.not_mem_dropEndWhile_shownLines (List.mem_of_getElem? hl)
        ((Text.dropEndWhile_prefix_self _ _).subset hmem)

section

variable {c : Char} {before : Text}

lemma shownLine_of_breaksAtFeeds (rest : Text) (hc : Text.isLineBreak c = false)
    (h : before.breaksAtFeeds = true) :
    (∃ l, shownLine (before ++ c :: rest) (1 + before.count '\n') = Text.lastLine before ++ c :: l) ∧
      shownStart (before ++ c :: rest) (1 + before.count '\n') + (Text.lastLine before).length =
        before.length := by
  obtain ⟨ls, l, later, hshown, hlength, hflat⟩ := Text.shownLines_append rest hc h
  have hne : c ≠ '\n' := (Text.feed_ne hc).symm
  have hne' : c ≠ '\r' := by
    rintro rfl
    simp [Text.isLineBreak] at hc
  rw [shownLine, shownStart, if_neg (by omega), Nat.add_sub_cancel_left, hshown, ← hlength]
  refine ⟨⟨Text.dropEndWhile (· == '\r') (Text.dropEndWhile (· == '\n') l), ?_⟩, ?_⟩
  · rw [List.getElem?_append_right (Nat.le_refl _), Nat.sub_self, List.getElem?_cons_zero,
      Option.getD_some, Text.dropEndWhile_append_cons (by simpa using hne),
      Text.dropEndWhile_append_cons (by simpa using hne')]
  · rw [List.take_left', ← List.length_append, hflat]
    rfl

/-- The line that is shown for a place begins where the line of the place does and reaches it exactly if
breaks in front of the place are line feeds. -/
lemma shownLine_reaches_iff (before rest : Text) (hc : Text.isLineBreak c = false) :
    (shownStart (before ++ c :: rest) (1 + before.count '\n') + (Text.lastLine before).length =
        before.length ∧
      (Text.lastLine before).length < (shownLine (before ++ c :: rest) (1 + before.count '\n')).length) ↔
      before.breaksAtFeeds = true := by
  constructor
  · rintro ⟨hstart, hreach⟩
    rw [shownStart, Nat.add_sub_cancel_left] at hstart
    rw [shownLine, if_neg (by omega), Nat.add_sub_cancel_left] at hreach
    cases hl : (Text.shownLines (before ++ c :: rest))[before.count '\n']? with
    | none =>
      rw [hl] at hreach
      simp [Text.dropEndWhile] at hreach
    | some l =>
      rw [hl, Option.getD_some] at hreach
      have hfeed := (Text.dropEndWhile_prefix_self (· == '\n') l).length_le
      have hreturn := (Text.dropEndWhile_prefix_self (· == '\r') (Text.dropEndWhile (· == '\n') l)).length_le
      exact Text.breaksAtFeeds_of_reaches hc hl hstart (by omega)
  · intro h
    obtain ⟨⟨l, hl⟩, hstart⟩ := shownLine_of_breaksAtFeeds rest hc h
    refine ⟨hstart, ?_⟩
    rw [hl, List.length_append, List.length_cons]
    omega

end

lemma text_eq (r : SourceReport) (source filename : Text) :
    ∃ header, r.text source filename =
      header ++ ['\n'] ++
      (Text.ofNat r.position.line ++ [' ', '|', ' '] ++ shownLine source r.position.line) ++ ['\n'] ++
      (List.replicate (Text.ofNat r.position.line).length ' ' ++ [' ', '|', ' '] ++
        List.replicate (r.position.column - 1) ' ' ++
        List.replicate (r.caretCount (shownLine source r.position.line)) '^') := by
  unfold text
  refine ⟨"error: ".toList ++ r.message ++ ['\n'] ++
    List.replicate ((Text.ofNat r.position.line).length + 1) ' ' ++ "--> ".toList ++ filename ++ [':'] ++
    Text.ofNat r.position.line ++ [':'] ++ Text.ofNat r.position.column ++ ['\n'] ++
    List.replicate ((Text.ofNat r.position.line).length + 1) ' ' ++ ['|'], ?_⟩
  simp only [List.replicate_succ', List.append_assoc, List.cons_append, List.nil_append]

lemma carets_le {r : SourceReport} {line : Text} (hcolumn : 1 ≤ r.position.column)
    (h : r.position.column - 1 < line.length) :
    r.position.column - 1 + r.caretCount line ≤ line.length := by
  rw [caretCount]
  omega

end SourceReport

/-- A report on a text that cannot be read ends with a line of the source and carets at the column of the
fault. The line begins where the line of the fault does and reaches the fault if and only if every break in
front of the fault is a line feed, alone or behind a carriage return. In this case the character at fault
stands above the first caret and the carets stay within the line. -/
theorem report_points_at_fault_iff (d : Dialect) (source filename : Text) (e : LexError)
    (h : tokenize d source = .error e) :
    ∃ header shown carets,
      e.report.text source filename =
        header ++ ['\n'] ++
        (Text.ofNat e.position.line ++ [' ', '|', ' '] ++ shown) ++ ['\n'] ++
        (List.replicate (Text.ofNat e.position.line).length ' ' ++ [' ', '|', ' '] ++
          List.replicate (e.position.column - 1) ' ' ++ List.replicate carets '^') ∧
      '\n' ∉ shown ∧ 1 ≤ carets ∧ e.position.offset < source.length ∧
      (SourceReport.shownStart source e.position.line + (e.position.column - 1) = e.position.offset ∧
          e.position.column - 1 < shown.length ↔
        Text.breaksAtFeeds (source.take e.position.offset) = true) ∧
      (Text.breaksAtFeeds (source.take e.position.offset) = true →
        shown[e.position.column - 1]? = source[e.position.offset]? ∧
        e.position.column - 1 + carets ≤ shown.length) := by
  obtain ⟨before, c, rest, rfl, hblank, hplace⟩ := exists_fault_of_tokensFrom h
  have hc : Text.isLineBreak c = false := by
    cases hbreak : Text.isLineBreak c with
    | false => rfl
    | true => exact absurd (Text.isBlank_of_isLineBreak hbreak) (by simp [hblank])
  rw [Position.advance_start_eq] at hplace
  have hreport : e.report.position = e.position := rfl
  have hreaches := SourceReport.shownLine_reaches_iff before rest hc
  obtain ⟨header, htext⟩ := e.report.text_eq (before ++ c :: rest) filename
  refine ⟨header, _, _, htext, SourceReport.not_mem_shownLine _ _, Nat.le_max_left _ _, ?_⟩
  simp only [hreport, hplace, Nat.add_sub_cancel_left, List.take_left']
  refine ⟨by simp, hreaches, fun hfeeds => ?_⟩
  obtain ⟨l, hl⟩ := (SourceReport.shownLine_of_breaksAtFeeds rest hc hfeeds).1
  constructor
  · rw [hl]
    simp
  · have hcarets := SourceReport.carets_le (r := e.report) (by rw [hreport, hplace]; exact Nat.le_add_right _ _)
      (by rw [hreport, hplace, Nat.add_sub_cancel_left]; exact (hreaches.mpr hfeeds).2)
    rwa [hreport, hplace, Nat.add_sub_cancel_left] at hcarets

theorem report_points_at_fault_iff_behind_pair :
    ∃ e header shown carets, tokenize .standard "?\r\n '\x0c".toList = .error e ∧
      e.report.text "?\r\n '\x0c".toList defaultFilename =
        header ++ ['\n'] ++ (['2'] ++ [' ', '|', ' '] ++ shown) ++ ['\n'] ++
          ([' '] ++ [' ', '|', ' '] ++ [' '] ++ List.replicate carets '^') ∧
      shown[1]? = some '\x27' ∧ 1 ≤ carets ∧ 1 + carets ≤ shown.length := by
  have hrefused : Refused Dialect.standard.lexicon .start .start
      (['?'] ++ (['\r', '\n', ' '] ++ ['\x27', '\x0c'])) ⟨.unclosedString '\x27', ⟨2, 2, 4⟩⟩ :=
    .later rfl rfl (by simp) (.later rfl rfl (by simp) (.here (by simp) rfl))
  have htokens : tokenize .standard "?\r\n '\x0c".toList = _ := tokensFrom_of_refused hrefused
  obtain ⟨header, shown, carets, htext, -, hcarets, -, -, hpoints⟩ :=
    report_points_at_fault_iff .standard _ defaultFilename _ htokens
  obtain ⟨hshown, hwithin⟩ := hpoints (by decide)
  exact ⟨_, header, shown, carets, htokens, htext, hshown, hcarets, hwithin⟩

/-- A form feed ends a line on paper, but not where lines are counted: the report shows the line in front
of the one at fault. -/
theorem report_misses_fault_behind_form_feed : ¬∀ (source : Text) (e : LexError),
    tokenize .standard source = .error e →
      (SourceReport.shownLine source e.position.line)[e.position.column - 1]? = source[e.position.offset]? := by
  intro h
  have hrefused : Refused Dialect.standard.lexicon .start .start (['\x0c'] ++ ['\x27'])
      ⟨.unclosedString '\x27', ⟨1, 2, 1⟩⟩ :=
    .later rfl rfl (by simp) (.here (by simp) rfl)
  exact absurd (h _ _ (tokensFrom_of_refused hrefused)) (by decide)

end SqlLayout
