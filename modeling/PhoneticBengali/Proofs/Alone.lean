/-
# Characters that are matched alone

A character is alone in a table if no literal of several characters holds it
(`RuleTable.IsAlone`).  So no match goes on across it, neither one that begins before
it nor one that begins with it, and a text around it is cut as its three parts are:

| part | its segments |
| --- | --- |
| what stands before the character | those of that text |
| the character | one, with a rule for the character alone or with none |
| what stands behind it | those of that text |

Only their surroundings are longer (`RuleTable.IsAlone.segments_append`).
-/

import PhoneticBengali.Proofs.Segmentation

namespace PhoneticBengali
namespace RuleTable

variable {table : RuleTable} {c : CodePoint}

/-- No literal of several characters holds `c`. -/
def IsAlone (table : RuleTable) (c : CodePoint) : Prop :=
  ∀ r ∈ table, 1 < r.find.length → c ∉ r.find

/-- A character that no literal holds is copied where it stands alone. -/
theorem segments_singleton (hfinds : ∀ r ∈ table, r.find ≠ []) (hc : ∀ r ∈ table, c ∉ r.find) :
    table.segments [c] = [⟨[], [c], [], none⟩] := by
  have hnone : table.first? [c] = none := by
    refine first?_eq_none_iff.2 fun r hr hprefix => hc r hr ?_
    rcases List.prefix_cons_iff.1 hprefix with h | ⟨t, h, -⟩
    · exact absurd h (hfinds r hr)
    · rw [h]
      exact List.mem_cons_self ..
  rw [segments, segmentsFrom_copy hnone]
  rfl

namespace IsAlone

/-- No literal goes on with the character. -/
theorem not_mem_continuations (hc : table.IsAlone c) {x : Text} (hx : x ≠ []) :
    c ∉ table.continuations x := by
  intro h
  obtain ⟨r, hr, y, hy⟩ := mem_continuations.1 h
  refine hc r hr ?_ (by simp [hy])
  have := List.length_pos_iff.2 hx
  rw [hy, List.length_append, List.length_cons]
  omega

/-- No literal goes on behind the character. -/
theorem continuations_singleton (hc : table.IsAlone c) : table.continuations [c] = [] := by
  refine List.eq_nil_iff_forall_not_mem.2 fun d hd => ?_
  obtain ⟨r, hr, y, hy⟩ := mem_continuations.1 hd
  exact hc r hr (by simp [hy]) (by simp [hy])

/-- **The segments around the character.**  They are those of the text before it, of
the character alone and of the text behind it, each in its surroundings. -/
theorem segments_append (hc : table.IsAlone c) (hfinds : ∀ r ∈ table, r.find ≠ []) (u v : Text) :
    table.segments (u ++ c :: v) =
      (table.segments u).map (·.within [] (c :: v)) ++
        ((table.segments [c]).map (·.within u.reverse v) ++
          (table.segments v).map (·.within (c :: u.reverse) [])) := by
  have hlater : Cut table (c :: u.reverse) v
      ((table.segments v).map (·.within (c :: u.reverse) [])) :=
    (cut_segments hfinds v).within (c :: u.reverse)
  have hfirst : ∀ x, x ≠ [] → x <:+ [c] → table.first? (x ++ v) = table.first? x := by
    intro x hx hsuffix
    rcases List.suffix_cons_iff.1 hsuffix with rfl | h
    · exact first?_append fun d _ => by simp [hc.continuations_singleton]
    · exact absurd (List.suffix_nil.1 h) hx
  have halone := ((cut_segments hfinds [c]).within u.reverse).append hlater hfirst
  simp only [List.map_map, Function.comp_def, Segment.within, List.append_nil,
    List.singleton_append] at halone
  refine segmentsFrom_eq ((cut_segments hfinds u).append ?_ fun x hx _ => first?_append ?_)
  · simpa [Segment.within] using halone
  · intro d hd
    obtain rfl : c = d := by simpa using hd
    exact hc.not_mem_continuations hx

end IsAlone
end RuleTable
end PhoneticBengali
