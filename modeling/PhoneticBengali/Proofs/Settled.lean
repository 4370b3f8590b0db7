/-
# Texts that lead back to themselves

A reverse scan changes a text where it finds a literal that leads to another text,
and in its clean-up.  `RuleTable.Changes` holds of the initials of such literals.  A
text without them, of characters that the clean-up keeps, is settled: scanning it
gives the text itself (`RuleTable.toRoman_eq_self`).

What a scan puts out is settled if the table is `RuleTable.IsSettling`:

| put out | no initial of a changing literal, because |
| --- | --- |
| the output of a rule | its characters are none |
| the letter for an independent vowel | it is none |
| a character that no rule matches | an initial is a literal by itself, and is matched |

So a second scan with such a table changes nothing (`RuleTable.toRoman_toRoman_of_isSettling`).
-/

import PhoneticBengali.Proofs.ReverseScan

namespace PhoneticBengali

namespace RuleTable

variable {table : RuleTable}

/-- A literal begins with `c` that leads to another text. -/
def Changes (table : RuleTable) (c : CodePoint) : Prop :=
  ∃ r ∈ table, c ∈ r.find.head? ∧ cleanup r.replace ≠ r.find

/-- A character that the clean-up keeps and no changing literal begins with. -/
structure IsSettled (table : RuleTable) (c : CodePoint) : Prop where
  kept : cleanupChar c = [c]
  unchanged : ¬ table.Changes c

/-- A table that puts out settled texts only. -/
structure IsSettling (table : RuleTable) : Prop where
  filled : ∀ r ∈ table, r.find ≠ []
  outputs : ∀ r ∈ table, ∀ c ∈ cleanup r.replace, ¬ table.Changes c
  letters : ∀ c ∈ vowelLetters, ¬ table.Changes c
  initials : ∀ c, table.Changes c → cleanupChar c = [c] → ∃ r ∈ table, r.find = [c]

end RuleTable

namespace Cut

variable {table : RuleTable} {left t : Text} {segments : List Segment}

/-- A settled text is put out as it is. -/
theorem cleanup_eq_self (h : Cut table left t segments) (ht : ∀ c ∈ t, table.IsSettled c) :
    cleanup (segments.flatMap Segment.plainOutput) = t := by
  induction h with
  | done left => rfl
  | @literal left rest r segments filled first _ ih =>
    have hr : cleanup r.replace = r.find := by
      obtain ⟨c, x, hx⟩ := List.exists_cons_of_ne_nil filled
      by_contra hchanged
      refine (ht c (by simp [hx])).unchanged ⟨r, RuleTable.mem_of_first? first, ?_, hchanged⟩
      simp [hx]
    have hrest := ih fun c hc => ht c (List.mem_append_right _ hc)
    rw [List.flatMap_cons, cleanup_append, hrest, Segment.plainOutput, hr]
  | @copy left rest c segments unmatched _ ih =>
    have hc : cleanup [c] = [c] := by
      simpa [cleanup] using (ht c (List.mem_cons_self ..)).kept
    have hrest := ih fun d hd => ht d (List.mem_cons_of_mem _ hd)
    rw [List.flatMap_cons, cleanup_append, hrest, Segment.plainOutput, hc, List.singleton_append]

/-- What is put out is settled. -/
theorem isSettled (h : Cut table left t segments) (htable : table.IsSettling) :
    ∀ c ∈ cleanup (segments.flatMap Segment.plainOutput), table.IsSettled c := by
  refine fun c hc => ⟨cleanupChar_of_mem_cleanup hc, ?_⟩
  induction h with
  | done left => cases hc
  | @literal left rest r segments filled first _ ih =>
    rw [List.flatMap_cons, cleanup_append, List.mem_append] at hc
    rcases hc with hc | hc
    · exact htable.outputs r (RuleTable.mem_of_first? first) c hc
    · exact ih hc
  | @copy left rest d segments unmatched _ ih =>
    rw [List.flatMap_cons, cleanup_append, List.mem_append] at hc
    rcases hc with hc | hc
    · have hcopy : c ∈ cleanupChar d := by simpa [cleanup, Segment.plainOutput] using hc
      obtain ⟨hd, rfl | hletter⟩ := mem_cleanupChar hcopy
      · -- what is copied is no literal, as no rule matches it
        intro hchanges
        obtain ⟨r, hr, hfind⟩ := htable.initials c hchanges hd
        exact RuleTable.first?_eq_none_iff.1 unmatched r hr (hfind ▸ List.prefix_append [c] rest)
      · exact htable.letters c hletter
    · exact ih hc

end Cut

namespace RuleTable

variable {table : RuleTable}

/-- A text of settled characters is romanized to itself. -/
theorem toRoman_eq_self (hfinds : ∀ r ∈ table, r.find ≠ []) {t : Text}
    (ht : ∀ c ∈ t, table.IsSettled c) : table.toRoman t = t := by
  have hcut := cut_segments hfinds t
  rw [hcut.toRoman_eq, hcut.cleanup_eq_self ht]

/-- The characters of a romanized text are settled. -/
theorem isSettled_of_mem_toRoman (htable : table.IsSettling) {t : Text} {c : CodePoint}
    (hc : c ∈ table.toRoman t) : table.IsSettled c := by
  have hcut := cut_segments htable.filled t
  exact hcut.isSettled htable c (hcut.toRoman_eq ▸ hc)

/-- **Scanning twice is scanning once** with a table that puts out settled texts. -/
theorem toRoman_toRoman_of_isSettling (htable : table.IsSettling) (t : Text) :
    table.toRoman (table.toRoman t) = table.toRoman t :=
  toRoman_eq_self htable.filled fun _ => isSettled_of_mem_toRoman htable

end RuleTable
end PhoneticBengali
