/-
# Working line by line

A function on texts works line by line if it keeps each line feed in its place, with
the results for what stands before and behind it around it, and makes no character
that ends a line.  For such a function it makes no difference whether lines are put
together before or after it is applied, and the results are found again by splitting
(`Text.IsLinewise.apply_unlines`, `Text.IsLinewise.splitLines_unlines_map`).

Leaving out terminal sequences is of this kind, because no part of a sequence is a
line feed (`Text.isLinewise_withoutSequences`).
-/

import PhoneticBengali.Text.Lines
import PhoneticBengali.Text.Terminal
import Mathlib.Data.List.TakeWhile

namespace PhoneticBengali
namespace Text

/-! ### Lines and their breaks -/

/-- A text without a character that ends a line. -/
def IsLine (t : Text) : Prop :=
  ∀ c ∈ t, isLineBreak c = false

/-- A line in front goes on with the line under way. -/
theorem splitLines_go_append {l : Text} (hl : IsLine l) (line : Option Text) (t : Text) :
    splitLines.go line (l ++ ('\n' : CodePoint) :: t) =
      ((line.getD []).reverse ++ l) :: splitLines.go none t := by
  induction l generalizing line with
  | nil => simp [splitLines.go, isLineBreak]
  | cons c l ih =>
    obtain ⟨hc, hl⟩ := List.forall_mem_cons.1 hl
    have hreturn : c ≠ '\r' := by
      rintro rfl
      cases hc
    rw [List.cons_append, splitLines.go.eq_3 _ _ _ fun _ h _ => hreturn h, hc, if_neg (by simp),
      ih hl]
    simp

/-- The first of some lines stands in front. -/
theorem unlines_cons (l : Text) (lines : List Text) :
    unlines (l :: lines) = l ++ ('\n' : CodePoint) :: unlines lines := by
  simp [unlines]

/-- **Lines put together are found again by splitting.** -/
theorem splitLines_unlines {lines : List Text} (h : ∀ l ∈ lines, IsLine l) :
    splitLines (unlines lines) = lines := by
  induction lines with
  | nil => rfl
  | cons l lines ih =>
    obtain ⟨hl, hlines⟩ := List.forall_mem_cons.1 h
    have hgo := splitLines_go_append hl none (unlines lines)
    rw [unlines_cons, splitLines, hgo, Option.getD_none, List.reverse_nil, List.nil_append]
    exact congrArg (l :: ·) (ih hlines)

/-- A character of a line stands in the line under way, or is one of the text that
ends no line. -/
theorem of_mem_splitLines_go {line : Option Text} {t l : Text} {c : CodePoint}
    (hl : l ∈ splitLines.go line t) (hc : c ∈ l) :
    c ∈ line.getD [] ∨ (c ∈ t ∧ isLineBreak c = false) := by
  fun_induction splitLines.go line t with
  | case1 line =>
    obtain ⟨l, rfl, rfl⟩ : ∃ k, line = some k ∧ k.reverse = l := by simpa using hl
    exact .inl (List.mem_reverse.1 hc)
  | case2 line t ih =>
    rcases List.mem_cons.1 hl with rfl | hl
    · exact .inl (List.mem_reverse.1 hc)
    · obtain ⟨ht, hbreak⟩ := (ih hl).resolve_left List.not_mem_nil
      exact .inr ⟨List.mem_cons_of_mem _ (List.mem_cons_of_mem _ ht), hbreak⟩
  | case3 line d t hpair hd ih =>
    rcases List.mem_cons.1 hl with rfl | hl
    · exact .inl (List.mem_reverse.1 hc)
    · obtain ⟨ht, hbreak⟩ := (ih hl).resolve_left List.not_mem_nil
      exact .inr ⟨List.mem_cons_of_mem _ ht, hbreak⟩
  | case4 line d t hpair hd ih =>
    rcases ih hl with hbegun | ⟨ht, hbreak⟩
    · rcases List.mem_cons.1 hbegun with rfl | hline
      · exact .inr ⟨List.mem_cons_self .., Bool.not_eq_true _ ▸ hd⟩
      · exact .inl hline
    · exact .inr ⟨List.mem_cons_of_mem _ ht, hbreak⟩

/-- The lines of a text hold what it holds, and no line break. -/
theorem of_mem_splitLines {t l : Text} {c : CodePoint} (hl : l ∈ splitLines t) (hc : c ∈ l) :
    c ∈ t ∧ isLineBreak c = false :=
  (of_mem_splitLines_go hl hc).resolve_left List.not_mem_nil

/-- No line that a text is split into holds a break. -/
theorem isLine_of_mem_splitLines {t l : Text} (h : l ∈ splitLines t) : IsLine l :=
  fun _ hc => (of_mem_splitLines h hc).2

/-- To unify line breaks adds line feeds alone. -/
theorem mem_unifyNewlines {t : Text} {c : CodePoint} (h : c ∈ unifyNewlines t) :
    c = '\n' ∨ c ∈ t := by
  fun_induction unifyNewlines t with
  | case1 => exact .inr h
  | case2 t ih =>
    rcases List.mem_cons.1 h with rfl | h
    · exact .inl rfl
    · exact (ih h).imp_right fun ht => List.mem_cons_of_mem _ (List.mem_cons_of_mem _ ht)
  | case3 t _ ih =>
    rcases List.mem_cons.1 h with rfl | h
    · exact .inl rfl
    · exact (ih h).imp_right (List.mem_cons_of_mem _)
  | case4 d t _ _ ih =>
    rcases List.mem_cons.1 h with rfl | h
    · exact .inr (List.mem_cons_self ..)
    · exact (ih h).imp_right (List.mem_cons_of_mem _)

/-! ### Functions that work line by line -/

/-- A function that keeps each line feed in its place and makes no line break. -/
structure IsLinewise (f : Text → Text) : Prop where
  nil : f [] = []
  append_lineFeed : ∀ u v, f (u ++ ('\n' : CodePoint) :: v) = f u ++ ('\n' : CodePoint) :: f v
  breaks : ∀ t, ∀ c ∈ f t, isLineBreak c = true → c ∈ t

namespace IsLinewise

variable {f g : Text → Text}

/-- To do nothing is to work line by line. -/
theorem id : IsLinewise id :=
  ⟨rfl, fun _ _ => rfl, fun _ _ hc _ => hc⟩

/-- What works line by line on what works line by line does so. -/
theorem comp (hg : IsLinewise g) (hf : IsLinewise f) : IsLinewise fun t => g (f t) where
  nil := by rw [hf.nil, hg.nil]
  append_lineFeed u v := by rw [hf.append_lineFeed, hg.append_lineFeed]
  breaks t c hc hbreak := hf.breaks t c (hg.breaks (f t) c hc hbreak) hbreak

/-- **Lines may be put together before or after.** -/
theorem apply_unlines (hf : IsLinewise f) (lines : List Text) :
    f (unlines lines) = unlines (lines.map f) := by
  induction lines with
  | nil => exact hf.nil
  | cons l lines ih =>
    rw [unlines_cons, hf.append_lineFeed, ih, List.map_cons, unlines_cons]

/-- What works line by line makes lines of lines. -/
theorem isLine (hf : IsLinewise f) {l : Text} (hl : IsLine l) : IsLine (f l) := by
  intro c hc
  by_contra hbreak
  rw [Bool.not_eq_false] at hbreak
  rw [hl c (hf.breaks l c hc hbreak)] at hbreak
  cases hbreak

/-- **The results for lines are lines again**, one for each. -/
theorem splitLines_unlines_map (hf : IsLinewise f) {lines : List Text}
    (h : ∀ l ∈ lines, IsLine l) : splitLines (unlines (lines.map f)) = lines.map f := by
  refine splitLines_unlines fun l hl => ?_
  obtain ⟨line, hline, rfl⟩ := List.mem_map.1 hl
  exact hf.isLine (h line hline)

end IsLinewise

/-! ### Terminal sequences and lines -/

section Stop

variable {p : CodePoint → Bool} {c : CodePoint}

/-- Taking stops at a character that is not to be taken. -/
theorem takeWhile_append_stop (hc : p c = false) (t v : Text) :
    (t ++ c :: v).takeWhile p = t.takeWhile p := by
  induction t with
  | nil => simp [hc]
  | cons d t ih => simp only [List.cons_append, List.takeWhile_cons, ih]

/-- Dropping stops at a character that is not to be dropped. -/
theorem dropWhile_append_stop (hc : p c = false) (t v : Text) :
    (t ++ c :: v).dropWhile p = t.dropWhile p ++ c :: v := by
  induction t with
  | nil => simp [hc]
  | cons d t ih =>
    simp only [List.cons_append, List.dropWhile_cons, ih]
    split <;> rfl

end Stop

/-- The parameters and intermediates of a sequence stand in the text. -/
theorem middle_le_length (t : Text) : (t.takeWhile isParameter).length +
    ((t.dropWhile isParameter).takeWhile isIntermediate).length ≤ t.length := by
  have hsplit := congrArg List.length (List.takeWhile_append_dropWhile (p := isParameter) (l := t))
  have hle := (List.takeWhile_prefix isIntermediate (l := t.dropWhile isParameter)).length_le
  rw [List.length_append] at hsplit
  omega

/-- A terminal sequence in front of a text is part of it. -/
theorem sequenceLength_le (t : Text) : sequenceLength t ≤ t.length := by
  unfold sequenceLength
  split
  · rename_i t
    dsimp only
    split
    · rename_i hfinal
      by_contra hlong
      rw [List.length_cons, List.length_cons] at hlong
      rw [List.drop_eq_nil_of_le (by omega)] at hfinal
      cases hfinal
    · exact Nat.zero_le _
  · exact Nat.zero_le _

/-- A sequence ends before a line feed. -/
theorem sequenceLength_append {u : Text} (hu : u ≠ []) (v : Text) :
    sequenceLength (u ++ ('\n' : CodePoint) :: v) = sequenceLength u := by
  obtain ⟨c, u, rfl⟩ := List.exists_cons_of_ne_nil hu
  cases u with
  | nil => simp [sequenceLength]
  | cons d t =>
    by_cases h : c = '\x1b' ∧ d = '['
    · obtain ⟨rfl, rfl⟩ := h
      have hparameter : isParameter '\n' = false := by decide
      have hintermediate : isIntermediate '\n' = false := by decide
      have hfinal : isFinal '\n' = false := by decide
      have hmiddle := middle_le_length t
      -- the line feed is in no part of a sequence, so each part stops before it
      simp only [List.cons_append, sequenceLength, takeWhile_append_stop hparameter,
        dropWhile_append_stop hparameter, takeWhile_append_stop hintermediate,
        List.drop_append_of_le_length hmiddle]
      cases t.drop _ with
      | nil => simp [hfinal]
      | cons e t => rfl
    · rw [List.cons_append, List.cons_append, sequenceLength.eq_2, sequenceLength.eq_2]
      · rintro t h'
        exact h ⟨(List.cons.inj h').1, (List.cons.inj (List.cons.inj h').2).1⟩
      · rintro t h'
        exact h ⟨(List.cons.inj h').1, (List.cons.inj (List.cons.inj h').2).1⟩

/-- No terminal sequence goes on behind a line feed. -/
theorem withoutSequences_go_append (skipped : Nat) (u v : Text) (h : skipped ≤ u.length) :
    withoutSequences.go skipped (u ++ ('\n' : CodePoint) :: v) =
      withoutSequences.go skipped u ++ ('\n' : CodePoint) :: withoutSequences.go 0 v := by
  induction u generalizing skipped with
  | nil =>
    obtain rfl : skipped = 0 := Nat.le_zero.1 h
    rfl
  | cons c u ih =>
    cases skipped with
    | succ skipped => exact ih skipped (Nat.le_of_succ_le_succ h)
    | zero =>
      have hlength := sequenceLength_append (List.cons_ne_nil c u) v
      have hle := sequenceLength_le (c :: u)
      rw [List.cons_append] at hlength ⊢
      rw [withoutSequences.go, withoutSequences.go, hlength]
      cases hsequence : sequenceLength (c :: u) with
      | zero => exact congrArg (c :: ·) (ih 0 (Nat.zero_le _))
      | succ length =>
        rw [hsequence, List.length_cons] at hle
        exact ih length (Nat.le_of_succ_le_succ hle)

/-- What is left without terminal sequences was there. -/
theorem withoutSequences_go_sublist (skipped : Nat) (t : Text) :
    (withoutSequences.go skipped t).Sublist t := by
  induction t generalizing skipped with
  | nil => exact .slnil
  | cons c t ih =>
    cases skipped with
    | succ skipped => exact (ih skipped).cons c
    | zero =>
      rw [withoutSequences.go]
      split
      · exact (ih 0).cons_cons c
      · exact (ih _).cons c

/-- **Terminal sequences are left out line by line.** -/
theorem isLinewise_withoutSequences : IsLinewise withoutSequences where
  nil := rfl
  append_lineFeed u v := withoutSequences_go_append 0 u v (Nat.zero_le _)
  breaks t _ hc _ := (withoutSequences_go_sublist 0 t).subset hc

/-- A text without introducers has no terminal sequence. -/
theorem withoutSequences_eq_self {t : Text} (h : ('\x1b' : CodePoint) ∉ t) :
    withoutSequences t = t := by
  rw [withoutSequences]
  induction t with
  | nil => rfl
  | cons c t ih =>
    obtain ⟨hc, ht⟩ := not_or.1 fun hmem => h (List.mem_cons.2 hmem)
    have hnone : sequenceLength (c :: t) = 0 := by
      rw [sequenceLength.eq_2]
      rintro t' h'
      exact hc (List.cons.inj h').1.symm
    rw [withoutSequences.go, hnone, ih ht]

end Text
end PhoneticBengali
