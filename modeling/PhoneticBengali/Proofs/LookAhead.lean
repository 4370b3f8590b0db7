/-
# How far a scan looks ahead

A text that is still being written may change what its end is converted to.  How far
that goes is told by two lengths of the table:

| length | of |
| --- | --- |
| `RuleTable.longestFind` | the longest literal of a rule |
| `RuleTable.sight` | the longest literal that a condition looks for behind a match, at least one character |

The first rule at a cursor is found within the first length
(`RuleTable.first?_append_of_length`), and its alternatives see no more than the second
behind the match (`RuleTable.alikeOn_append_of_length`).  So a segment that begins their
sum or more before the end is early: it is cut and rewritten alike however the text goes
on (`RuleTable.toBengali_append_early`).
-/

import PhoneticBengali.Bundled
import PhoneticBengali.Proofs.Passes
import PhoneticBengali.Proofs.Surroundings
import Mathlib.Data.List.Infix
import Mathlib.Data.List.MinMax

namespace PhoneticBengali
namespace RuleTable

/-- The length of the longest literal. -/
def longestFind (table : RuleTable) : Nat :=
  (table.map (·.find.length)).foldr max 0

/-- How far conditions look behind a match: one character, or the length of the longest
literal that an exact condition looks for there. -/
def sight (table : RuleTable) : Nat :=
  max 1 (((table.literalsOn .after).map (·.length)).foldr max 0)

/-- How many characters from its beginning on decide over a segment, at most. -/
def lookAhead (table : RuleTable) : Nat :=
  table.longestFind + table.sight

/-- The segments of a text that begin `lookAhead` characters or more before its end. -/
def early (table : RuleTable) (t : Text) : List Segment :=
  (table.segments t).filter fun s => s.left.length + table.lookAhead ≤ t.length

/-- Whether a text has `lookAhead` characters or more from the beginning of a segment on. -/
def isEarly (table : RuleTable) (s : Segment) : Bool :=
  table.lookAhead ≤ (s.source ++ s.right).length

variable {table : RuleTable}

/-- No literal is longer than the longest one. -/
theorem length_le_longestFind {r : Rule} (hr : r ∈ table) : r.find.length ≤ table.longestFind :=
  List.le_max_of_le' 0 (List.mem_map_of_mem hr) le_rfl

/-- No exact condition looks further ahead than the table sees. -/
theorem length_le_sight {l : Text} (hl : l ∈ table.literalsOn .after) : l.length ≤ table.sight :=
  le_max_of_le_right (List.le_max_of_le' 0 (List.mem_map_of_mem hl) le_rfl)

/-- A segment is early if, from its beginning on, the text is as long as what is
looked at. -/
theorem isEarly_iff {s : Segment} :
    table.isEarly s = true ↔ table.lookAhead ≤ (s.source ++ s.right).length :=
  decide_eq_true_iff

/-- A table sees at least the next character. -/
theorem sight_pos (table : RuleTable) : 0 < table.sight :=
  Nat.le_max_left ..

/-- **A rule that is found in enough text is final.** -/
theorem first?_append_of_length {x : Text} (hx : table.longestFind ≤ x.length) (v : Text) :
    table.first? (x ++ v) = table.first? x :=
  first?_congr fun _ hr => List.isPrefix_append_of_length ((length_le_longestFind hr).trans hx)

/-- **Conditions do not see the end of enough text.** -/
theorem alikeOn_append_of_length {x : Text} (hx : table.sight ≤ x.length) (v : Text) :
    table.AlikeOn .after (x ++ v) x := by
  refine ⟨?_, fun l hl => List.isPrefix_append_of_length ((length_le_sight hl).trans hx)⟩
  obtain ⟨c, x, rfl⟩ := List.exists_cons_of_length_pos (table.sight_pos.trans_le hx)
  rfl

end RuleTable

namespace Cut

variable {table : RuleTable} {left rest : Text} {segments : List Segment}

/-- A short text has no early segments. -/
theorem filter_isEarly_eq_nil (h : Cut table left rest segments)
    (hrest : rest.length < table.lookAhead) : segments.filter table.isEarly = [] := by
  rw [List.filter_eq_nil_iff]
  intro s hs hearly
  rw [RuleTable.isEarly_iff] at hearly
  have := (h.suffix hs).length_le
  omega

/-- An early segment keeps its output however the text goes on. -/
theorem output_within_of_isEarly (h : Cut table left rest segments) {s : Segment}
    (hs : s ∈ segments) (hearly : table.isEarly s = true) (v : Text) :
    (s.within [] v).output = s.output := by
  refine Segment.output_within fun r hr => ?_
  have hmem := h.rule_mem hs hr
  have hfind := RuleTable.length_le_longestFind hmem
  have hright : table.sight ≤ s.right.length := by
    rw [RuleTable.isEarly_iff, List.length_append, h.source_eq hs hr, RuleTable.lookAhead] at hearly
    omega
  rw [List.append_nil]
  exact RuleTable.output_eq_of_alikeOn hmem (.refl table .before s.left)
    (RuleTable.alikeOn_append_of_length hright v)

/-- **Early segments stay.**  However a text goes on, its early segments are the first
that are cut. -/
theorem exists_append (hfinds : ∀ r ∈ table, r.find ≠ []) (h : Cut table left rest segments)
    (v : Text) :
    ∃ later, Cut table left (rest ++ v)
      ((segments.filter table.isEarly).map (·.within [] v) ++ later) := by
  induction h with
  | done left => exact ⟨_, RuleTable.cut_segmentsFrom hfinds left v⟩
  | @literal left rest r segments filled first hrest ih =>
    rcases lt_or_ge (r.find ++ rest).length table.lookAhead with hlate | hearly
    · rw [(Cut.literal filled first hrest).filter_isEarly_eq_nil hlate]
      exact ⟨_, RuleTable.cut_segmentsFrom hfinds left _⟩
    · obtain ⟨later, hlater⟩ := ih
      have hfirst : table.first? (r.find ++ (rest ++ v)) = some r := by
        rw [← List.append_assoc,
          RuleTable.first?_append_of_length ((Nat.le_add_right _ _).trans hearly), first]
      refine ⟨later, ?_⟩
      rw [List.filter_cons_of_pos (RuleTable.isEarly_iff.2 hearly)]
      simpa [Segment.within] using Cut.literal filled hfirst hlater
  | @copy left rest c segments unmatched hrest ih =>
    rcases lt_or_ge (c :: rest).length table.lookAhead with hlate | hearly
    · rw [(Cut.copy unmatched hrest).filter_isEarly_eq_nil hlate]
      exact ⟨_, RuleTable.cut_segmentsFrom hfinds left _⟩
    · obtain ⟨later, hlater⟩ := ih
      have hfirst : table.first? (c :: (rest ++ v)) = none := by
        rw [← List.cons_append,
          RuleTable.first?_append_of_length ((Nat.le_add_right _ _).trans hearly), unmatched]
      refine ⟨later, ?_⟩
      rw [List.filter_cons_of_pos (RuleTable.isEarly_iff.2 hearly)]
      simpa [Segment.within] using Cut.copy hfirst hlater

/-- Fewer than `lookAhead` characters at the end are in no early segment. -/
theorem length_lt (h : Cut table left rest segments) :
    rest.length <
      ((segments.filter table.isEarly).flatMap (·.source)).length + table.lookAhead := by
  have hpos : 0 < table.lookAhead := Nat.add_pos_right _ table.sight_pos
  induction h with
  | done left => simpa using hpos
  | @literal left rest r segments filled first _ ih =>
    rcases lt_or_ge (r.find ++ rest).length table.lookAhead with hlate | hearly
    · omega
    · rw [List.filter_cons_of_pos (RuleTable.isEarly_iff.2 hearly), List.flatMap_cons]
      simp only [List.length_append]
      omega
  | @copy left rest c segments unmatched _ ih =>
    rcases lt_or_ge (c :: rest).length table.lookAhead with hlate | hearly
    · omega
    · rw [List.filter_cons_of_pos (RuleTable.isEarly_iff.2 hearly), List.flatMap_cons]
      simp only [List.length_append, List.length_cons, List.length_nil]
      omega

end Cut

namespace RuleTable

open Bundled (plain varied reads)

variable {table : RuleTable}

/-- Early segments told by how much text there is from their beginning on. -/
theorem early_eq (hfinds : ∀ r ∈ table, r.find ≠ []) (t : Text) :
    table.early t = (table.segments t).filter table.isEarly := by
  refine List.filter_congr fun s hs => ?_
  have hlength : s.left.length + (s.source ++ s.right).length = t.length := by
    have htext := congrArg List.length ((cut_segments hfinds t).text_eq hs)
    simpa [Nat.add_assoc] using htext
  rw [isEarly, decide_eq_decide, ← hlength, Nat.add_le_add_iff_left]

/-- The outputs of early segments begin what any longer text is converted to. -/
theorem early_prefix (hfinds : ∀ r ∈ table, r.find ≠ []) (u v : Text) :
    (table.early (fixCase u)).flatMap Segment.output <+: table.toBengali (u ++ v) := by
  have hcut := cut_segments hfinds (fixCase u)
  obtain ⟨later, hlater⟩ := hcut.exists_append hfinds (fixCase v)
  have htext : table.toBengali (u ++ v) = (table.early (fixCase u)).flatMap Segment.output ++
      later.flatMap Segment.output := by
    have hcase : fixCase (u ++ v) = fixCase u ++ fixCase v := List.map_append ..
    rw [toBengali, segments, hcase, segmentsFrom_eq hlater, List.flatMap_append,
      List.flatMap_map, ← early_eq hfinds]
    congr 1
    refine List.flatMap_congr fun s hs => ?_
    rw [early_eq hfinds, List.mem_filter] at hs
    exact hcut.output_within_of_isEarly hs.1 hs.2 (fixCase v)
  exact htext ▸ List.prefix_append _ _

/-- **Bounded look-ahead.**  What the early segments of a text put out begins both what
the text is converted to and what it is converted to when it goes on.  They take all of
it but for fewer than `lookAhead` characters at its end. -/
theorem toBengali_append_early (hfinds : ∀ r ∈ table, r.find ≠ []) (u v : Text) :
    (table.early (fixCase u)).flatMap Segment.output <+: table.toBengali u ∧
      (table.early (fixCase u)).flatMap Segment.output <+: table.toBengali (u ++ v) ∧
      u.length < ((table.early (fixCase u)).flatMap (·.source)).length + table.lookAhead := by
  refine ⟨?_, early_prefix hfinds u v, ?_⟩
  · have h := early_prefix hfinds u []
    rwa [List.append_nil] at h
  · rw [early_eq hfinds, ← length_fixCase]
    exact (cut_segments hfinds (fixCase u)).length_lt

/-- The hypothesis of `toBengali_append_early` is met by two rules that look ahead four
characters.  In `kakshk` the first three segments are early, the third of them
overridden because of what follows it, and the last `k` may still become `kh`. -/
theorem toBengali_append_early_kakshk :
    let table : RuleTable := [plain "kh" "খ", varied "k" "ক" [([reads .after "sh"], "ক্")]]
    let u : Text := "kakshk"
    let settled : Text := "কaক্"
    (∀ r ∈ table, r.find ≠ []) ∧ table.lookAhead = 4 ∧
      settled <+: table.toBengali u ∧ settled <+: table.toBengali (u ++ "h") := by
  intro table u settled
  have hfinds : ∀ r ∈ table, r.find ≠ [] := by decide +kernel
  have hearly : (table.early (fixCase u)).flatMap Segment.output = settled := by
    decide +kernel
  have h := toBengali_append_early hfinds u "h"
  rw [hearly] at h
  exact ⟨hfinds, by decide +kernel, h.1, h.2.1⟩

end RuleTable
end PhoneticBengali
