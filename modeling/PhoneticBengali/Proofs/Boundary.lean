/-
# Characters that no rule looks across

A boundary is a character, in the case of the rules, that is punctuation to the
conditions and stands in no literal but its own: no longer literal holds it, no
exact condition asks for it, and a rule for the character alone has one output.
So is punctuation that the rules do not mention (`RuleTable.isBoundary_of_not_mem`); in
the bundled rules, all punctuation is that has at most a rule of one output to itself
(`Bundled.isBoundary_of_apart`), such as blanks, `!`, digits and `$`.

No literal is matched across a boundary, and beside one every condition gives the
answer it gives at a text edge.  So the text before a boundary, the boundary and
the text behind it are converted one by one (`toBengali_append_boundary`).
-/

import PhoneticBengali.Proofs.Alone
import PhoneticBengali.Proofs.Bundled.Basic
import Mathlib.Data.List.Basic

namespace PhoneticBengali

/-- A character that is punctuation and stands in no literal but its own, which
has one output. -/
structure RuleTable.IsBoundary (table : RuleTable) (c : CodePoint) : Prop where
  punctuation : LetterClass.of c = .punctuation
  alone : ∀ r ∈ table, 1 < r.find.length → c ∉ r.find
  unread : ∀ l ∈ table.exactLiterals, c ∉ l
  plain : ∀ r ∈ table, r.find = [c] → r.alternatives = []

/-- A literal does not reach into a text that begins with a character it lacks. -/
theorem prefix_append_iff {l x t : Text} (h : ∀ c ∈ t.head?, c ∉ l) : l <+: x ++ t ↔ l <+: x := by
  refine ⟨fun hl => ?_, fun hl => List.prefix_append_of_prefix hl⟩
  rcases List.prefix_or_prefix_of_prefix hl (List.prefix_append x t) with hx | ⟨y, rfl⟩
  · exact hx
  · rw [List.prefix_append_right_inj] at hl
    cases y with
    | nil => simp
    | cons c y =>
      obtain ⟨z, rfl⟩ := hl
      exact absurd (by simp) (h c rfl)

/-- Beside punctuation the nearest character is of the class it has at a text edge. -/
theorem LetterClass.ofNeighbour_append {x t : Text} (h : ∀ c ∈ t.head?, of c = .punctuation) :
    ofNeighbour (x ++ t) = ofNeighbour x := by
  cases x with
  | cons c x => rfl
  | nil =>
    cases t with
    | nil => rfl
    | cons c t => exact h c rfl

namespace RuleTable

variable {table : RuleTable}

/-- **A text that begins at a boundary is as good as none.**  What a rule puts
out does not change when such texts join its surroundings. -/
theorem output_append {r : Rule} (hr : r ∈ table) {before after : Text}
    (hbefore : ∀ c ∈ before.head?, table.IsBoundary c)
    (hafter : ∀ c ∈ after.head?, table.IsBoundary c) (left right : Text) :
    r.output (left ++ before) (right ++ after) = r.output left right := by
  have hsees : ∀ a ∈ r.alternatives, ∀ k ∈ a.conditions, ∀ x t : Text,
      (∀ c ∈ t.head?, table.IsBoundary c) → k.sees (x ++ t) = k.sees x := by
    intro a ha k hk x t ht
    refine Condition.sees_congr (LetterClass.ofNeighbour_append fun c hc => (ht c hc).punctuation)
      fun l hl => prefix_append_iff fun c hc hcl => ?_
    have hmem := mem_exactLiterals hr (Rule.mem_exactLiterals ha hk hl)
    exact (ht c hc).unread l hmem (Condition.mem_outward.1 hcl)
  refine Rule.output_congr fun a ha k hk => ?_
  rw [Condition.holds_eq_sees, Condition.holds_eq_sees]
  cases k.side with
  | before => exact hsees a ha k hk left before hbefore
  | after => exact hsees a ha k hk right after hafter

/-- A segment keeps its output when texts that begin at a boundary are put around
the text it is cut from. -/
theorem output_within (hfinds : ∀ r ∈ table, r.find ≠ []) {t : Text} {s : Segment}
    (hs : s ∈ table.segments t) {before after : Text}
    (hbefore : ∀ c ∈ before.head?, table.IsBoundary c)
    (hafter : ∀ c ∈ after.head?, table.IsBoundary c) :
    (s.within before after).output = s.output := by
  refine Segment.output_within fun r hr => ?_
  exact output_append ((cut_segments hfinds t).rule_mem hs hr) hbefore hafter _ _

/-- **Punctuation that no literal holds is a boundary.** -/
theorem isBoundary_of_not_mem {c : CodePoint} (hclass : LetterClass.of c = .punctuation)
    (hfinds : ∀ r ∈ table, c ∉ r.find) (hliterals : ∀ l ∈ table.exactLiterals, c ∉ l) :
    table.IsBoundary c where
  punctuation := hclass
  alone r hr _ := hfinds r hr
  unread := hliterals
  plain r hr hfind := absurd (hfind ▸ List.mem_singleton_self c) (hfinds r hr)

namespace IsBoundary

variable {c : CodePoint}

/-- No longer literal holds a boundary. -/
theorem isAlone (hc : table.IsBoundary c) : table.IsAlone c :=
  hc.alone

/-- The segment of a boundary has the boundary as its literal, if it has a rule. -/
theorem find_eq_singleton (hfinds : ∀ r ∈ table, r.find ≠ []) {s : Segment}
    (hs : s ∈ table.segments [c]) {r : Rule} (hr : s.rule = some r) : r.find = [c] := by
  have hcut := cut_segments hfinds [c]
  have htext : s.left.reverse ++ r.find ++ s.right = [c] := by
    rw [← hcut.source_eq hs hr]
    exact hcut.text_eq hs
  have hpos := List.length_pos_iff.2 (hfinds r (hcut.rule_mem hs hr))
  have hlength := congrArg List.length htext
  simp only [List.length_append, List.length_reverse, List.length_singleton] at hlength
  have hleft : s.left = [] := List.eq_nil_of_length_eq_zero (by omega)
  have hright : s.right = [] := List.eq_nil_of_length_eq_zero (by omega)
  simpa [hleft, hright] using htext

/-- A boundary by itself has one output, whatever stands around it. -/
theorem output_within_singleton (hc : table.IsBoundary c) (hfinds : ∀ r ∈ table, r.find ≠ [])
    {s : Segment} (hs : s ∈ table.segments [c]) (before after : Text) :
    (s.within before after).output = s.output := by
  refine Segment.output_within fun r hr => ?_
  have hmem := (cut_segments hfinds [c]).rule_mem hs hr
  have hplain := hc.plain r hmem (find_eq_singleton hfinds hs hr)
  rw [Rule.output_of_alternatives_eq_nil hplain, Rule.output_of_alternatives_eq_nil hplain]

/-- **The output around a boundary** is that of the three parts. -/
theorem output_segments_append (hc : table.IsBoundary c) (hfinds : ∀ r ∈ table, r.find ≠ [])
    (u v : Text) :
    (table.segments (u ++ c :: v)).flatMap Segment.output =
      (table.segments u).flatMap Segment.output ++ (table.segments [c]).flatMap Segment.output ++
        (table.segments v).flatMap Segment.output := by
  have hu : ∀ s ∈ table.segments u, (s.within [] (c :: v)).output = s.output := fun s hs =>
    output_within hfinds hs (by simp) (by simpa using hc)
  have hboundary : ∀ s ∈ table.segments [c], (s.within u.reverse v).output = s.output :=
    fun s hs => hc.output_within_singleton hfinds hs _ _
  have hv : ∀ s ∈ table.segments v, (s.within (c :: u.reverse) []).output = s.output := fun s hs =>
    output_within hfinds hs (by simpa using hc) (by simp)
  rw [hc.isAlone.segments_append hfinds, List.flatMap_append, List.flatMap_append, List.flatMap_map,
    List.flatMap_map, List.flatMap_map, List.append_assoc, List.flatMap_congr hu,
    List.flatMap_congr hboundary, List.flatMap_congr hv]

end IsBoundary

/-- **Conversion splits at a boundary.**  The text before a character that is a
boundary in the case of the rules, the character itself and the text behind it
are converted one by one. -/
theorem toBengali_append_boundary (hfinds : ∀ r ∈ table, r.find ≠ []) {c : CodePoint}
    (hc : table.IsBoundary (fixCaseChar c)) (u v : Text) :
    table.toBengali (u ++ c :: v) =
      table.toBengali u ++ table.toBengali [c] ++ table.toBengali v := by
  simpa [toBengali, fixCase] using hc.output_segments_append hfinds (fixCase u) (fixCase v)

end RuleTable

namespace Bundled

/-- The characters that exact conditions ask for have more to them than a rule of one
output for each alone. -/
theorem exists_rule_of_mem_marked : ∀ c ∈ marked, ∃ r ∈ table, c ∈ r.find ∧
    ¬ (r.find = [c] ∧ r.alternatives = []) := by
  decide +kernel

/-- **In the bundled rules, punctuation is a boundary** if no rule mentions it or just rules
of one output for it alone. -/
theorem isBoundary_of_apart {c : CodePoint} (hclass : LetterClass.of c = .punctuation)
    (h : ∀ r ∈ table, c ∈ r.find → r.find = [c] ∧ r.alternatives = []) : table.IsBoundary c where
  punctuation := hclass
  alone r hr hlong hc := by
    rw [(h r hr hc).1, List.length_singleton] at hlong
    exact absurd hlong (Nat.lt_irrefl 1)
  unread l hl hc := by
    obtain ⟨d, hd, rfl⟩ := List.mem_map.1 (exactLiterals_marked l hl)
    obtain rfl := List.mem_singleton.1 hc
    obtain ⟨r, hr, hfind, hmore⟩ := exists_rule_of_mem_marked c hd
    exact hmore (h r hr hfind)
  plain r hr hfind := (h r hr (hfind ▸ List.mem_singleton_self c)).2

/-- Blanks, digits and some other signs are boundaries. -/
example : ∀ c ∈ (" !?$0123456789" : Text), table.IsBoundary c :=
  fun c hc => isBoundary_of_apart (by revert c; decide) (by revert c; decide +kernel)

/-- The hypotheses of `toBengali_append_boundary` are met by the bundled rules at a
dollar sign: `o` and `r` behind it are converted as they are at the beginning of a text. -/
theorem toBengali_around_dollar :
    (∀ r ∈ table, r.find ≠ []) ∧ table.IsBoundary (fixCaseChar '$') ∧
      table.toBengali ['k', 'o', '$', 'o', 'r', 'a'] =
        table.toBengali ['k', 'o'] ++ table.toBengali ['$'] ++ table.toBengali ['o', 'r', 'a'] := by
  have hdollar : table.IsBoundary (fixCaseChar '$') :=
    isBoundary_of_apart (by decide) (by decide +kernel)
  exact ⟨find_ne_nil, hdollar,
    RuleTable.toBengali_append_boundary find_ne_nil hdollar ['k', 'o'] ['o', 'r', 'a']⟩

end Bundled
end PhoneticBengali
