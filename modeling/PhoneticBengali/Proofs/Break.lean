/-
# Characters that end what stands before them

A break may stand at the end of literals, but nothing goes on behind it: in a literal it
is followed by itself alone.  To what comes behind, it is punctuation that no condition
asks for.  So a text goes on behind a break as if it began there
(`RuleTable.toBengali_append_break`), unless it goes on with the break itself.

| place | beside a boundary | beside a break |
| --- | --- | --- |
| before | text that does not see it | text whose literals and conditions may take it in |
| behind | text that does not see it | text that does not see it |

In the bundled rules the backtick is a break (`Bundled.toBengali_append_backtick`).
-/

import PhoneticBengali.Proofs.Boundary
import PhoneticBengali.Proofs.Characters
import Mathlib.Data.List.Chain

namespace PhoneticBengali

/-- Nothing but `c` itself follows `c` in a text. -/
def IsClosedBy (c : CodePoint) (t : Text) : Prop :=
  t.IsChain fun a b => a = c → b = c

instance (c : CodePoint) (t : Text) : Decidable (IsClosedBy c t) :=
  inferInstanceAs (Decidable (t.IsChain fun a b => a = c → b = c))

/-- A literal that is closed by a character does not reach behind it. -/
theorem IsClosedBy.prefix_iff {c : CodePoint} {l : Text} (hl : IsClosedBy c l) {v : Text}
    (hv : c ∉ v.head?) (x : Text) : l <+: x ++ c :: v ↔ l <+: x ++ [c] := by
  rw [List.append_cons]
  refine ⟨fun h => ?_, fun h => List.prefix_append_of_prefix h⟩
  rcases List.prefix_or_prefix_of_prefix h (List.prefix_append (x ++ [c]) v) with hx | ⟨y, rfl⟩
  · exact hx
  · rw [List.prefix_append_right_inj] at h
    cases y with
    | nil => simp
    | cons d y =>
      obtain ⟨z, rfl⟩ := h
      rw [IsClosedBy, List.append_assoc, List.singleton_append,
        List.isChain_append_cons_cons] at hl
      exact absurd (by simp [hl.2.1 rfl]) hv

namespace RuleTable

/-- A character that ends what stands before it: punctuation that no condition on what
stands before a match asks for, that closes all other literals, and that ends only
literals of rules with one output. -/
structure IsBreak (table : RuleTable) (c : CodePoint) : Prop where
  punctuation : LetterClass.of c = .punctuation
  closed : ∀ r ∈ table, IsClosedBy c r.find
  closedSight : ∀ l ∈ table.literalsOn .after, IsClosedBy c l
  unread : ∀ l ∈ table.literalsOn .before, c ∉ l
  plain : ∀ r ∈ table, c ∈ r.find.getLast? → r.alternatives = []

variable {table : RuleTable} {c : CodePoint}

namespace IsBreak

/-- No rule sees what comes behind a break. -/
theorem first?_append (hc : table.IsBreak c) {v : Text} (hv : c ∉ v.head?) (x : Text) :
    table.first? (x ++ c :: v) = table.first? (x ++ [c]) :=
  first?_congr fun r hr => (hc.closed r hr).prefix_iff hv x

/-- Nor does a condition on what follows a match. -/
theorem alikeOn_after (hc : table.IsBreak c) {v : Text} (hv : c ∉ v.head?) (x : Text) :
    table.AlikeOn .after (x ++ c :: v) (x ++ [c]) :=
  ⟨by cases x <;> rfl, fun l hl => (hc.closedSight l hl).prefix_iff hv x⟩

/-- Behind a break conditions give the answers of the beginning of a text. -/
theorem alikeOn_before (hc : table.IsBreak c) (x before : Text) :
    table.AlikeOn .before (x ++ c :: before) x := by
  refine ⟨LetterClass.ofNeighbour_append (by simpa using hc.punctuation), fun l hl => ?_⟩
  refine prefix_append_iff fun d hd hmem => hc.unread l hl ?_
  obtain rfl : c = d := by simpa using hd
  exact List.mem_reverse.1 hmem

/-- **The segments around a break** are those of the text up to it and of the text behind
it, each in its surroundings. -/
theorem segments_append (hc : table.IsBreak c) (hfinds : ∀ r ∈ table, r.find ≠ []) (u : Text)
    {v : Text} (hv : c ∉ v.head?) :
    table.segments (u ++ c :: v) =
      (table.segments (u ++ [c])).map (·.within [] v) ++
        (table.segments v).map (·.within (c :: u.reverse) []) := by
  have hlater : Cut table ((u ++ [c]).reverse ++ []) v
      ((table.segments v).map (·.within (c :: u.reverse) [])) := by
    simpa using (cut_segments hfinds v).within (c :: u.reverse)
  have hcut := (cut_segments hfinds (u ++ [c])).append hlater fun x hx hsuffix => by
    obtain ⟨y, rfl, -⟩ := (List.suffix_concat_iff.1 hsuffix).resolve_left hx
    rw [← List.append_cons, hc.first?_append hv]
  rw [← List.append_cons] at hcut
  exact segmentsFrom_eq hcut

/-- A segment up to a break keeps its output, whatever comes behind. -/
theorem output_up_to (hc : table.IsBreak c) (hfinds : ∀ r ∈ table, r.find ≠ []) {u : Text}
    {s : Segment} (hs : s ∈ table.segments (u ++ [c])) {v : Text} (hv : c ∉ v.head?) :
    (s.within [] v).output = s.output := by
  refine Segment.output_within fun r hr => ?_
  have hcut := cut_segments hfinds (u ++ [c])
  have hmem := hcut.rule_mem hs hr
  have hsuffix := hcut.suffix hs
  rw [List.append_nil]
  rcases List.suffix_concat_iff.1 ((List.suffix_append _ _).trans hsuffix) with hend | ⟨y, hy, -⟩
  · -- the segment ends with the break, and so does the literal of its rule
    rw [hend, List.append_nil, hcut.source_eq hs hr] at hsuffix
    obtain ⟨y, hy, -⟩ := (List.suffix_concat_iff.1 hsuffix).resolve_left (hfinds r hmem)
    have hplain := hc.plain r hmem (by simp [hy])
    rw [Rule.output_of_alternatives_eq_nil hplain, Rule.output_of_alternatives_eq_nil hplain]
  · rw [hy, ← List.append_cons]
    exact output_eq_of_alikeOn hmem (.refl _ _ _) (hc.alikeOn_after hv y)

/-- A segment behind a break has the output that it has at the beginning of a text. -/
theorem output_behind (hc : table.IsBreak c) (hfinds : ∀ r ∈ table, r.find ≠ []) {v : Text}
    {s : Segment} (hs : s ∈ table.segments v) (before : Text) :
    (s.within (c :: before) []).output = s.output := by
  refine Segment.output_within fun r hr => ?_
  rw [List.append_nil]
  exact output_eq_of_alikeOn ((cut_segments hfinds v).rule_mem hs hr)
    (hc.alikeOn_before s.left before) (.refl table .after s.right)

/-- **The output around a break** is that of the two parts. -/
theorem output_segments_append (hc : table.IsBreak c) (hfinds : ∀ r ∈ table, r.find ≠ [])
    (u : Text) {v : Text} (hv : c ∉ v.head?) :
    (table.segments (u ++ c :: v)).flatMap Segment.output =
      (table.segments (u ++ [c])).flatMap Segment.output ++
        (table.segments v).flatMap Segment.output := by
  have hu : ∀ s ∈ table.segments (u ++ [c]), (s.within [] v).output = s.output :=
    fun s hs => hc.output_up_to hfinds hs hv
  have hbehind : ∀ s ∈ table.segments v, (s.within (c :: u.reverse) []).output = s.output :=
    fun s hs => hc.output_behind hfinds hs _
  rw [hc.segments_append hfinds u hv, List.flatMap_append, List.flatMap_map, List.flatMap_map,
    List.flatMap_congr hu, List.flatMap_congr hbehind]

end IsBreak

/-- **Conversion splits behind a break.**  A text up to a character that is a break in the
case of the rules and the text behind it are converted one by one. -/
theorem toBengali_append_break (hfinds : ∀ r ∈ table, r.find ≠ [])
    (hc : table.IsBreak (fixCaseChar c)) (u : Text) {v : Text}
    (hv : fixCaseChar c ∉ (fixCase v).head?) :
    table.toBengali (u ++ c :: v) = table.toBengali (u ++ [c]) ++ table.toBengali v := by
  simpa [toBengali, fixCase] using hc.output_segments_append hfinds (fixCase u) hv

end RuleTable

namespace Bundled

/-- The backtick is a break of the bundled rules: of their literals only that of `ৎ` goes
on behind a backtick, with another one. -/
theorem isBreak_backtick : table.IsBreak '\x60' where
  punctuation := by decide
  closed := by decide +kernel
  closedSight := by decide +kernel
  unread := by decide +kernel
  plain := by decide +kernel

/-- **The backtick breaks a text.**  What comes behind it is converted as at the beginning
of a text, and does not change what stands before it, unless it begins with another
backtick. -/
theorem toBengali_append_backtick (u : Text) {v : Text} (hv : v.head? ≠ some ('\x60' : CodePoint)) :
    table.toBengali (u ++ ('\x60' : CodePoint) :: v) =
      table.toBengali (u ++ [('\x60' : CodePoint)]) ++ table.toBengali v := by
  have hfixed : fixCaseChar '\x60' = '\x60' := by decide
  refine RuleTable.toBengali_append_break find_ne_nil (hfixed ▸ isBreak_backtick) u ?_
  rw [hfixed, fixCase, List.head?_map]
  intro hmem
  obtain ⟨d, hd, hdc⟩ := Option.map_eq_some_iff.1 hmem
  exact hv (eq_of_fixCaseChar_lt (by decide) (by decide) hdc ▸ hd)

/-- The hypothesis of `toBengali_append_backtick` is met by `oi` behind a backtick that is
part of a literal: its `o` is converted as at the beginning of a text, though a vowel stands
before the backtick. -/
theorem toBengali_append_backtick_kaoi :
    ("oi" : Text).head? ≠ some ('\x60' : CodePoint) ∧
      table.toBengali ['k', 'a', '\x60', 'o', 'i'] =
        table.toBengali ['k', 'a', '\x60'] ++ table.toBengali ['o', 'i'] :=
  ⟨by decide, toBengali_append_backtick ['k', 'a'] (v := ['o', 'i']) (by decide)⟩

end Bundled
end PhoneticBengali
