/-
# The ceiling of a reverse scan

A reverse scan of `n` characters is granted `2n` passes.  A pass over a literal or a single
character brings the scan on (`RuleTable.Advances`), and `n` of them at most fit into the
text.  An empty literal takes nothing.  Once the first rule that matches has one, the scan
stands still (`RuleTable.StandsStill`): each pass it has left puts out the same and leaves
it where it is.  So there are two ways to end, and what the scan meets decides between
them (`RuleTable.scanReverse_ceiling`):

| the scan | counts | puts out |
| --- | --- | --- |
| reaches the end of the text | its segments, at most `n` | their outputs |
| stands still after `m` passes | `2n + 1` | what these put out, then `2n - m` times the output of the rule it stands still at |
-/

import PhoneticBengali.Proofs.Division
import PhoneticBengali.Proofs.ReverseScan

namespace PhoneticBengali

/-- The course with `outputs` put out before it. -/
def Course.behind (outputs : List Text) (c : Course) : Course :=
  { c with outputs := outputs ++ c.outputs }

namespace RuleTable

/-- The first passes over `t` take a character each or more, put out `outputs` and come
to `rest`. -/
inductive Advances (table : RuleTable) : (t : Text) → (outputs : List Text) → (rest : Text) → Prop
  where
  | start (t : Text) : Advances table t [] t
  | literal {r : Rule} {t rest : Text} {outputs : List Text} (filled : r.find ≠ [])
      (first : table.first? (r.find ++ t) = some r) (later : Advances table t outputs rest) :
      Advances table (r.find ++ t) (r.replace :: outputs) rest
  | copy {c : CodePoint} {t rest : Text} {outputs : List Text}
      (unmatched : table.first? (c :: t) = none) (later : Advances table t outputs rest) :
      Advances table (c :: t) ([c] :: outputs) rest

/-- A scan that has come to `rest` is not at the end of its text, and the first rule that
matches there is `r`, with an empty literal. -/
structure StandsStill (table : RuleTable) (rest : Text) (r : Rule) : Prop where
  unfinished : rest ≠ []
  first : table.first? rest = some r
  empty : r.find = []

variable {table : RuleTable} {t rest : Text} {outputs : List Text} {r : Rule}

/-- **Where a scan stands still it stays.**  All passes that are left put out the same. -/
theorem StandsStill.courseWithin_eq (h : table.StandsStill rest r) (passes : Nat) :
    table.courseWithin passes rest = ⟨List.replicate passes r.replace, rest⟩ := by
  obtain ⟨c, x, rfl⟩ := List.exists_cons_of_ne_nil h.unfinished
  induction passes with
  | zero => rfl
  | succ passes ih =>
    rw [courseWithin, h.first]
    simp only [h.empty, List.length_nil, List.drop_zero, ih, Course.after, List.replicate_succ]

namespace Advances

/-- Each pass takes a character or more. -/
theorem length_le (h : table.Advances t outputs rest) :
    outputs.length + rest.length ≤ t.length := by
  induction h with
  | start t => exact (Nat.zero_add _).le
  | literal filled _ _ ih =>
    have := List.length_pos_iff.2 filled
    rw [List.length_cons, List.length_append]
    omega
  | copy _ _ ih =>
    rw [List.length_cons, List.length_cons]
    omega

/-- **A scan goes on from where it has come to**, with the passes that are left. -/
theorem courseWithin_eq (h : table.Advances t outputs rest) (passes : Nat) :
    table.courseWithin (outputs.length + passes) t =
      (table.courseWithin passes rest).behind outputs := by
  induction h with
  | start t => rw [List.length_nil, Nat.zero_add]; rfl
  | @literal r t rest outputs filled first _ ih =>
    rw [List.length_cons, Nat.add_right_comm, courseWithin_literal filled first, ih]
    rfl
  | @copy c t rest outputs unmatched _ ih =>
    rw [List.length_cons, Nat.add_right_comm, courseWithin_copy unmatched, ih]
    rfl

/-- What a scan that stands still after some passes gives in the end. -/
theorem scanReverse_eq (h : table.Advances t outputs rest) (hstill : table.StandsStill rest r) :
    table.scanReverse t =
      ⟨cleanup (outputs.flatten ++
          (List.replicate (2 * t.length - outputs.length) r.replace).flatten),
        2 * t.length + 1, true⟩ := by
  have hlength := h.length_le
  have hpasses : 2 * t.length = outputs.length + (2 * t.length - outputs.length) := by omega
  have hunreached : rest.isEmpty = false := List.isEmpty_eq_false_iff.2 hstill.unfinished
  have hcourse : table.course t =
      ⟨outputs ++ List.replicate (2 * t.length - outputs.length) r.replace, rest⟩ := by
    rw [course, hpasses, h.courseWithin_eq, hstill.courseWithin_eq, ← hpasses]
    rfl
  rw [scanReverse, hcourse, Course.result, Course.isTruncated]
  simp only [hunreached, Bool.not_false, if_true, List.flatten_append, List.length_append,
    List.length_replicate, ← hpasses]

end Advances

/-- **A scan comes to the end or stands still.**  Each step goes on behind the literal or
the character that the last one has taken, so the induction is on the length of the
text. -/
theorem exists_cut_or_standsStill (table : RuleTable) (left t : Text) :
    (∃ segments, Cut table left t segments) ∨
      ∃ outputs rest r, table.Advances t outputs rest ∧ table.StandsStill rest r := by
  cases hr : table.first? t with
  | none =>
    cases t with
    | nil => exact .inl ⟨[], .done left⟩
    | cons c t =>
      rcases exists_cut_or_standsStill table (c :: left) t with ⟨segments, hcut⟩ |
        ⟨outputs, rest, r, hadvances, hstill⟩
      · exact .inl ⟨_, .copy hr hcut⟩
      · exact .inr ⟨_, rest, r, .copy hr hadvances, hstill⟩
  | some r =>
    by_cases hempty : r.find = []
    · by_cases ht : t = []
      · exact .inl ⟨[], ht ▸ .done left⟩
      · exact .inr ⟨[], t, r, .start t, ht, hr, hempty⟩
    · obtain ⟨later, rfl⟩ := prefix_of_first? hr
      have : later.length < (r.find ++ later).length := by
        rw [List.length_append]
        have := List.length_pos_iff.2 hempty
        omega
      rcases exists_cut_or_standsStill table (r.find.reverse ++ left) later with
        ⟨segments, hcut⟩ | ⟨outputs, rest, s, hadvances, hstill⟩
      · exact .inl ⟨_, .literal hempty hr hcut⟩
      · exact .inr ⟨_, rest, s, .literal hempty hr hadvances, hstill⟩
termination_by t.length

end RuleTable

/-- What a scan of a cut text gives. -/
theorem Cut.scanReverse_eq {table : RuleTable} {left t : Text} {segments : List Segment}
    (h : Cut table left t segments) :
    table.scanReverse t =
      ⟨cleanup (segments.flatMap Segment.plainOutput), segments.length, false⟩ := by
  have hlength := h.length_le
  rw [RuleTable.scanReverse, RuleTable.course, h.courseWithin_eq (by omega), List.flatMap_def]
  simp [Course.result, Course.isTruncated]

namespace RuleTable

open Bundled (plain)

/-- **The ceiling.**  A reverse scan is cut off exactly if it comes to a place before the
end of the text where the first rule that matches has an empty literal.  Then it has
counted one pass more than it was granted, and has put out that rule's output with every
pass behind the ones that brought it there.  Otherwise it has counted the segments of the
text, and they leave nothing of the text out. -/
theorem scanReverse_ceiling (table : RuleTable) (t : Text) :
    ((table.scanReverse t).truncated = true ↔
      ∃ outputs rest r, table.Advances t outputs rest ∧ table.StandsStill rest r) ∧
    (∀ outputs rest r, table.Advances t outputs rest → table.StandsStill rest r →
      outputs.length + rest.length ≤ t.length ∧
      (table.scanReverse t).iterations = 2 * t.length + 1 ∧
      (table.scanReverse t).output = cleanup (outputs.flatten ++
        (List.replicate (2 * t.length - outputs.length) r.replace).flatten)) ∧
    ((table.scanReverse t).truncated = false →
      Cut table [] t (table.segments t) ∧
      (table.scanReverse t).iterations = (table.segments t).length ∧
      (table.segments t).length ≤ t.length ∧
      ((table.segments t).map (·.source)).flatten = t ∧
      (table.scanReverse t).output =
        cleanup ((table.segments t).flatMap Segment.plainOutput)) := by
  refine ⟨⟨fun htruncated => ?_, ?_⟩, fun outputs rest r h hstill => ?_, fun hwhole => ?_⟩
  · refine (exists_cut_or_standsStill table [] t).resolve_left ?_
    rintro ⟨segments, hcut⟩
    rw [hcut.scanReverse_eq] at htruncated
    cases htruncated
  · rintro ⟨outputs, rest, r, h, hstill⟩
    rw [h.scanReverse_eq hstill]
  · have hscan := h.scanReverse_eq hstill
    exact ⟨h.length_le, by rw [hscan], by rw [hscan]⟩
  · rcases exists_cut_or_standsStill table [] t with ⟨segments, hcut⟩ |
      ⟨outputs, rest, r, h, hstill⟩
    · obtain rfl : table.segments t = segments := segmentsFrom_eq hcut
      have hscan := hcut.scanReverse_eq
      exact ⟨hcut, by rw [hscan], hcut.length_le, (isDivision_of_cut hcut).whole, by rw [hscan]⟩
    · rw [h.scanReverse_eq hstill] at hwhole
      cases hwhole

/-- `scanReverse_ceiling` at a table whose second rule has an empty literal.  The pass over
`ক` puts out `k`; then the scan of `কখগ` stands still, and the five passes that are left put
out `-` each. -/
theorem scanReverse_ceiling_kkhg :
    let table : RuleTable := [plain "ক" "k", plain "" "-", plain "গ" "g"]
    let t : Text := "কখগ"
    table.Advances t ["k"] "খগ" ∧ table.StandsStill "খগ" (plain "" "-") ∧
      (table.scanReverse t).truncated = true ∧ (table.scanReverse t).iterations = 7 ∧
      (table.scanReverse t).output = "k-----" := by
  intro table t
  have hadvances : table.Advances t ["k"] "খগ" :=
    .literal (r := plain "ক" "k") (by decide) (by decide +kernel) (.start _)
  have hstill : table.StandsStill "খগ" (plain "" "-") :=
    ⟨by decide, by decide +kernel, by decide⟩
  obtain ⟨htruncated, hstanding, -⟩ := scanReverse_ceiling table t
  obtain ⟨-, hiterations, houtput⟩ := hstanding _ _ _ hadvances hstill
  exact ⟨hadvances, hstill, htruncated.2 ⟨_, _, _, hadvances, hstill⟩, hiterations,
    houtput.trans (by decide +kernel)⟩

end RuleTable
end PhoneticBengali
