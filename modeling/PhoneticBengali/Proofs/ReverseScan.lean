/-
# A reverse scan that makes progress

The passes of a reverse scan are the segments of the text, as long as no literal
is empty: each pass takes the literal of the first rule or a single character.  A
text of `n` characters has at most `n` segments, so the `2n` passes it is given
always suffice, and the scan puts out the plain output of every segment
(`Cut.toRoman_eq`).

Plain outputs do not depend on what stands around a segment, and the clean-up goes
character by character.  So the way back splits wherever the segments do: at every
character that is matched alone (`RuleTable.toRoman_append_alone`).
-/

import PhoneticBengali.Bundled
import PhoneticBengali.Proofs.Alone
import PhoneticBengali.Proofs.Cleanup

namespace PhoneticBengali

/-! ### The passes -/

namespace RuleTable

variable {table : RuleTable}

/-- A pass over the literal of the first rule goes on behind it. -/
theorem courseWithin_literal {r : Rule} {rest : Text} (filled : r.find ≠ [])
    (first : table.first? (r.find ++ rest) = some r) (passes : Nat) :
    table.courseWithin (passes + 1) (r.find ++ rest) =
      (table.courseWithin passes rest).after r.replace := by
  obtain ⟨c, lit, hlit⟩ := List.exists_cons_of_ne_nil filled
  have hdrop : (c :: (lit ++ rest)).drop r.find.length = rest := by simp [hlit]
  rw [hlit, List.cons_append] at first ⊢
  rw [courseWithin, first]
  simp only [hdrop]

/-- A pass that copies a character goes on behind it. -/
theorem courseWithin_copy {c : CodePoint} {rest : Text}
    (unmatched : table.first? (c :: rest) = none) (passes : Nat) :
    table.courseWithin (passes + 1) (c :: rest) = (table.courseWithin passes rest).after [c] := by
  rw [courseWithin, unmatched]

end RuleTable

namespace Cut

variable {table : RuleTable} {left t : Text} {segments : List Segment}

/-- Every segment takes a character. -/
theorem length_le (h : Cut table left t segments) : segments.length ≤ t.length := by
  induction h with
  | done left => exact Nat.le_refl 0
  | literal filled _ _ ih =>
    have := List.length_pos_iff.2 filled
    rw [List.length_cons, List.length_append]
    omega
  | copy _ _ ih =>
    rw [List.length_cons, List.length_cons]
    omega

/-- **Passes are segments.**  A scan with enough passes goes through the segments of
the text one by one and reaches its end. -/
theorem courseWithin_eq (h : Cut table left t segments) {passes : Nat}
    (hpasses : segments.length ≤ passes) :
    table.courseWithin passes t = ⟨segments.map Segment.plainOutput, []⟩ := by
  induction h generalizing passes with
  | done left => cases passes <;> rfl
  | literal filled first _ ih =>
    obtain ⟨passes, rfl⟩ := Nat.exists_eq_add_one_of_ne_zero (Nat.ne_zero_of_lt hpasses)
    rw [RuleTable.courseWithin_literal filled first, ih (Nat.le_of_succ_le_succ hpasses)]
    rfl
  | copy unmatched _ ih =>
    obtain ⟨passes, rfl⟩ := Nat.exists_eq_add_one_of_ne_zero (Nat.ne_zero_of_lt hpasses)
    rw [RuleTable.courseWithin_copy unmatched, ih (Nat.le_of_succ_le_succ hpasses)]
    rfl

/-- **The romanized text of a cut one** is that of its segments, in order. -/
theorem toRoman_eq (h : Cut table left t segments) :
    table.toRoman t = cleanup (segments.flatMap Segment.plainOutput) := by
  have hlength := h.length_le
  rw [RuleTable.toRoman, RuleTable.scanReverse, RuleTable.course, h.courseWithin_eq (by omega),
    Course.result, List.flatMap_def]

end Cut

namespace RuleTable

open Bundled (plain)

variable {table : RuleTable}

/-- In a table without empty literals the romanized text is that of the segments. -/
theorem toRoman_eq (hfinds : ∀ r ∈ table, r.find ≠ []) (t : Text) :
    table.toRoman t = cleanup ((table.segments t).flatMap Segment.plainOutput) :=
  (cut_segments hfinds t).toRoman_eq

/-- Around a character that is matched alone the plain output is that of the three parts:
surroundings do not count for it. -/
theorem IsAlone.plainOutput_segments_append {c : CodePoint} (hc : table.IsAlone c)
    (hfinds : ∀ r ∈ table, r.find ≠ []) (u v : Text) :
    (table.segments (u ++ c :: v)).flatMap Segment.plainOutput =
      (table.segments u).flatMap Segment.plainOutput ++
        (table.segments [c]).flatMap Segment.plainOutput ++
        (table.segments v).flatMap Segment.plainOutput := by
  have hwithin : ∀ before after : Text, ∀ segments : List Segment,
      (segments.map (·.within before after)).flatMap Segment.plainOutput =
        segments.flatMap Segment.plainOutput := fun _ _ _ => List.flatMap_map ..
  rw [hc.segments_append hfinds, List.flatMap_append, List.flatMap_append, hwithin, hwithin,
    hwithin, List.append_assoc]

/-- **The way back splits at a character that is matched alone.**  The text before it, the
character itself and the text behind it are led back one by one. -/
theorem toRoman_append_alone (hfinds : ∀ r ∈ table, r.find ≠ []) {c : CodePoint}
    (hc : table.IsAlone c) (u v : Text) :
    table.toRoman (u ++ c :: v) = table.toRoman u ++ table.toRoman [c] ++ table.toRoman v := by
  rw [toRoman_eq hfinds, toRoman_eq hfinds, toRoman_eq hfinds, toRoman_eq hfinds,
    hc.plainOutput_segments_append hfinds, cleanup_append, cleanup_append]

/-- The hypotheses of `toRoman_append_alone` are met by a joiner between the two letters of a
conjunct.  No literal holds it and the clean-up removes it, but what it has kept apart is not
put together: it is led back as `kSh`, and not as the `kkh` of the conjunct. -/
theorem toRoman_append_alone_joiner :
    let table : RuleTable := [plain "ক্ষ" "kkh", plain "ক" "k", plain "ষ" "Sh"]
    let joiner : CodePoint := '\u200d'
    let front : Text := "ক\u09cd"
    let behind : Text := "ষ"
    (∀ r ∈ table, r.find ≠ []) ∧ table.IsAlone joiner ∧
      table.toRoman (front ++ joiner :: behind) = "kSh" := by
  intro table joiner front behind
  have hfinds : ∀ r ∈ table, r.find ≠ [] := by decide +kernel
  have halone : table.IsAlone joiner := by unfold IsAlone; decide +kernel
  refine ⟨hfinds, halone, ?_⟩
  rw [toRoman_append_alone hfinds halone]
  decide +kernel

/-- **A character that no literal holds keeps its place** on the way back, if the
clean-up leaves it. -/
theorem toRoman_append (hfinds : ∀ r ∈ table, r.find ≠ []) {c : CodePoint}
    (hc : ∀ r ∈ table, c ∉ r.find) (hkept : cleanupChar c = [c]) (u v : Text) :
    table.toRoman (u ++ c :: v) = table.toRoman u ++ c :: table.toRoman v := by
  have halone : table.IsAlone c := fun r hr _ => hc r hr
  have hcopy : cleanup [c] = [c] := by simpa [cleanup] using hkept
  rw [toRoman_eq hfinds, toRoman_eq hfinds, toRoman_eq hfinds,
    halone.plainOutput_segments_append hfinds, segments_singleton hfinds hc, cleanup_append,
    cleanup_append]
  simp only [List.flatMap_singleton, Segment.plainOutput, hcopy, List.append_assoc,
    List.singleton_append]

end RuleTable
end PhoneticBengali
