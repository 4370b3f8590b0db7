/-
# The way back, told of the rules themselves

A reverse table is filtered, turned around and sorted before a text is scanned
with it.  What the scan does can be told of the rules as they are listed.  A rule
leads back from a place of the text when its output stands there and

| part of the rule | is |
| --- | --- |
| literal | neither empty nor that of the inherent vowel |
| output | not empty |

Of the rules that lead back the one with the longest output is taken, and of those
with that output the one that is listed first (`RuleTable.IsLongestBack`).  It puts
out its literal, and where no rule leads back a character is copied
(`RuleTable.LedBack`).  Every text is led back in exactly one way, and the romanized
text is that without the marks that have no counterpart
(`RuleTable.toRoman_reverse`).
-/

import PhoneticBengali.Proofs.LongestFirst
import PhoneticBengali.Proofs.ReverseScan

namespace PhoneticBengali

/-- The output of `r` begins `rest`, and neither side of `r` keeps it out of the
reverse table. -/
structure Rule.LeadsBack (r : Rule) (rest : Text) : Prop where
  find_ne_nil : r.find ≠ []
  find_ne_inherent : r.find ≠ (['o'] : Text)
  replace_ne_nil : r.replace ≠ []
  begins : r.replace <+: rest

/-- A rule leads back where its output begins the text, if it can be turned. -/
theorem Rule.leadsBack_iff {r : Rule} {rest : Text} :
    r.LeadsBack rest ↔ r.isReversible = true ∧ r.replace <+: rest := by
  rw [isReversible_iff]
  constructor
  · intro h
    exact ⟨⟨h.find_ne_nil, h.replace_ne_nil, h.find_ne_inherent⟩, h.begins⟩
  · rintro ⟨⟨hfind, hreplace, hinherent⟩, hbegins⟩
    exact ⟨hfind, hinherent, hreplace, hbegins⟩

namespace RuleTable

/-- Of the rules that lead back from the beginning of `rest`, `r` has the longest
output, and is the first with that output. -/
structure IsLongestBack (table : RuleTable) (rest : Text) (r : Rule) : Prop where
  first : IsFirst (fun s => s.LeadsBack rest ∧ s.replace = r.replace) table r
  longest : ∀ s ∈ table, s.LeadsBack rest → s.replace.length ≤ r.replace.length

/-- A text is led back to `out`, place by place. -/
inductive LedBack (table : RuleTable) : (t out : Text) → Prop where
  | done : LedBack table [] []
  | rule {r : Rule} {rest out : Text} (longest : table.IsLongestBack (r.replace ++ rest) r)
      (later : LedBack table rest out) : LedBack table (r.replace ++ rest) (r.find ++ out)
  | copy {c : CodePoint} {rest out : Text} (unmatched : ∀ r ∈ table, ¬ r.LeadsBack (c :: rest))
      (later : LedBack table rest out) : LedBack table (c :: rest) (c :: out)

variable {table : RuleTable}

/-- The first rule that is listed with an output is the one its literal is looked up
by. -/
theorem isFirst_iff_source? {rest : Text} {r : Rule} (hbegins : r.replace <+: rest) :
    IsFirst (fun s => s.LeadsBack rest ∧ s.replace = r.replace) table r ↔
      table.source? r.replace = some r := by
  rw [source?_eq]
  refine (find?_eq_some_iff_isFirst fun s => ?_).symm
  rw [Bool.and_eq_true, beq_iff_eq, Rule.leadsBack_iff, and_assoc]
  constructor
  · rintro ⟨hreversible, hsame⟩
    exact ⟨hreversible, hsame ▸ hbegins, hsame⟩
  · rintro ⟨hreversible, -, hsame⟩
    exact ⟨hreversible, hsame⟩

/-- The literals of a reverse table that stand at a place are the outputs of the rules
that lead back from there. -/
theorem forall_mem_reverse_iff {rest : Text} {p : Text → Prop} :
    (∀ s ∈ table.reverse, s.find <+: rest → p s.find) ↔
      ∀ r ∈ table, r.LeadsBack rest → p r.replace := by
  constructor
  · intro h r hr hback
    obtain ⟨hreversible, hbegins⟩ := Rule.leadsBack_iff.1 hback
    exact h r.turned (mem_reverse.2 ⟨r, hr, hreversible, rfl⟩) hbegins
  · intro h s hs hbegins
    obtain ⟨r, hr, hreversible, rfl⟩ := mem_reverse.1 hs
    exact h r hr (Rule.leadsBack_iff.2 ⟨hreversible, hbegins⟩)

/-- **The first rule of a reverse table** is the rule with the longest output, turned
around. -/
theorem first?_reverse_eq_some_iff {rest : Text} {s : Rule} :
    table.reverse.first? rest = some s ↔ ∃ r, table.IsLongestBack rest r ∧ r.turned = s := by
  have hsorted : table.reverse.Pairwise fun s t => t.find.length ≤ s.find.length :=
    pairwise_longestFirst _
  have hlongest : (∀ q ∈ table.reverse, q.find <+: rest → q.find.length ≤ s.find.length) ↔
      ∀ q ∈ table, q.LeadsBack rest → q.replace.length ≤ s.find.length :=
    forall_mem_reverse_iff (p := fun x => x.length ≤ s.find.length)
  rw [first?_eq_some_iff_of_pairwise hsorted, find?_reverse, Option.map_eq_some_iff, hlongest]
  constructor
  · rintro ⟨⟨r, hsource, rfl⟩, hbegins, hbound⟩
    exact ⟨r, ⟨(isFirst_iff_source? hbegins).2 hsource, hbound⟩, rfl⟩
  · rintro ⟨r, hr, rfl⟩
    obtain ⟨-, -, -, ⟨hback, -⟩, -⟩ := hr.first
    exact ⟨⟨r, (isFirst_iff_source? hback.begins).1 hr.first, rfl⟩, hback.begins, hr.longest⟩

/-- The reverse table has no match exactly if no rule leads back. -/
theorem first?_reverse_eq_none_iff {rest : Text} :
    table.reverse.first? rest = none ↔ ∀ r ∈ table, ¬ r.LeadsBack rest :=
  first?_eq_none_iff.trans (forall_mem_reverse_iff (p := fun _ => False))

/-- A text is led back to the plain outputs of its segments under the reverse table. -/
theorem ledBack_of_cut {left t : Text} {segments : List Segment}
    (h : Cut table.reverse left t segments) :
    table.LedBack t (segments.flatMap Segment.plainOutput) := by
  induction h with
  | done left => exact .done
  | literal _ first _ ih =>
    obtain ⟨r, hr, rfl⟩ := first?_reverse_eq_some_iff.1 first
    exact .rule hr ih
  | copy unmatched _ ih => exact .copy (first?_reverse_eq_none_iff.1 unmatched) ih

/-- And to nothing else. -/
theorem LedBack.exists_cut {t out : Text} (h : table.LedBack t out) (left : Text) :
    ∃ segments, Cut table.reverse left t segments ∧
      segments.flatMap Segment.plainOutput = out := by
  induction h generalizing left with
  | done => exact ⟨[], .done left, rfl⟩
  | @rule r rest out longest _ ih =>
    obtain ⟨segments, hcut, hout⟩ := ih (r.replace.reverse ++ left)
    have hfirst : table.reverse.first? (r.turned.find ++ rest) = some r.turned :=
      first?_reverse_eq_some_iff.2 ⟨r, longest, rfl⟩
    have hfilled : r.turned.find ≠ [] := find_ne_nil_of_mem_reverse (mem_of_first? hfirst)
    refine ⟨_, .literal hfilled hfirst hcut, ?_⟩
    rw [List.flatMap_cons, hout]
    rfl
  | @copy c rest out unmatched _ ih =>
    obtain ⟨segments, hcut, hout⟩ := ih (c :: left)
    refine ⟨_, .copy (first?_reverse_eq_none_iff.2 unmatched) hcut, ?_⟩
    rw [List.flatMap_cons, hout]
    rfl

/-- **The way back.**  With any table whatever, every text is led back in exactly one
way: at each place by the rule with the longest output, the first one listed among
equals, or else by copying a character.  The romanized text is the outcome cleaned
up. -/
theorem toRoman_reverse (table : RuleTable) (t : Text) :
    ∃ out, (∀ x, table.LedBack t x ↔ x = out) ∧ table.reverse.toRoman t = cleanup out := by
  have hcut := cut_segments_reverse table t
  refine ⟨(table.reverse.segments t).flatMap Segment.plainOutput, fun x => ⟨fun h => ?_, ?_⟩,
    hcut.toRoman_eq⟩
  · obtain ⟨cut, hcut', rfl⟩ := h.exists_cut []
    rw [← segmentsFrom_eq hcut', ← segmentsFrom_eq hcut]
  · rintro rfl
    exact ledBack_of_cut hcut

end RuleTable
end PhoneticBengali
