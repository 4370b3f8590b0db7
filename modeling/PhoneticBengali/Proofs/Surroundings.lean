/-
# What a rule sees of its surroundings

A condition looks at one side of a match.  What it sees there is

| scope | sees |
| --- | --- |
| `letter` | the class of the nearest character |
| `exact` | whether the text on that side begins with the literal |

and nothing else (`Condition.sees_congr`), so surroundings that agree on this much
give a rule the same output (`Rule.output_congr`).

Each side has conditions and literals of its own.  Texts that these do not tell apart
are alike on that side (`RuleTable.AlikeOn`), and one may stand there for the other
(`RuleTable.output_eq_of_alikeOn`).
-/

import PhoneticBengali.Rule.Basic
import Mathlib.Data.List.Find

namespace PhoneticBengali

namespace Condition

/-- The literal that an exact condition looks for. -/
def exactLiteral? (k : Condition) : Option Text :=
  match k.scope with
  | .exact => k.literal
  | _ => none

/-- Whether a condition is met by the text on its own side. -/
def sees (k : Condition) (t : Text) : Bool :=
  k.holds t t

/-- A condition holds by what it sees on its own side. -/
theorem holds_eq_sees (k : Condition) (left right : Text) :
    k.holds left right = k.sees (k.side.of left right) := by
  have hside : ∀ t, k.side.of t t = t := fun t => by cases k.side <;> rfl
  rw [sees, holds, holds, hside]

/-- **What a condition sees.**  Texts with nearest characters of one class that
begin with the same literals look alike. -/
theorem sees_congr {k : Condition} {x y : Text}
    (hclass : LetterClass.ofNeighbour x = LetterClass.ofNeighbour y)
    (hliteral : ∀ l, k.exactLiteral? = some l → (k.outward l <+: x ↔ k.outward l <+: y)) :
    k.sees x = k.sees y := by
  have hside : ∀ t, k.side.of t t = t := fun t => by cases k.side <;> rfl
  simp only [sees, holds, hside]
  split
  · rename_i c l hscope hl
    have h := hliteral (c :: l) (by simp [exactLiteral?, hscope, hl])
    rw [← List.isPrefixOf_iff_prefix, ← List.isPrefixOf_iff_prefix, ← Bool.eq_iff_iff] at h
    rw [h]
  · rfl
  · rw [hclass]
  · rfl

/-- A literal has the same characters in either direction. -/
theorem mem_outward {k : Condition} {l : Text} {c : CodePoint} : c ∈ k.outward l ↔ c ∈ l := by
  rw [outward]
  split <;> simp

/-- The literal that an exact condition looks for on that side. -/
def literalOn? (side : Side) (k : Condition) : Option Text :=
  if k.side = side then k.exactLiteral? else none

end Condition

/-- A literal on a side of a match as it is met when walking away from the match. -/
def Side.outward : Side → Text → Text
  | before, l => l.reverse
  | after, l => l

/-- The direction of a condition is that of its side. -/
theorem Condition.outward_eq (k : Condition) (l : Text) : k.outward l = k.side.outward l := by
  cases hside : k.side <;> simp only [Condition.outward, hside, Side.outward]

namespace Rule

/-- The literals of the exact conditions of a rule. -/
def exactLiterals (r : Rule) : List Text :=
  r.alternatives.flatMap fun a => a.conditions.filterMap (·.exactLiteral?)

/-- The literal of an exact condition of a rule is one of the rule's. -/
theorem mem_exactLiterals {r : Rule} {a : Alternative} {k : Condition} {l : Text}
    (ha : a ∈ r.alternatives) (hk : k ∈ a.conditions) (hl : k.exactLiteral? = some l) :
    l ∈ r.exactLiterals :=
  List.mem_flatMap.2 ⟨a, ha, List.mem_filterMap.2 ⟨k, hk, hl⟩⟩

/-- Where all conditions of a rule give the same answers, so does the rule. -/
theorem output_congr {r : Rule} {left right left' right' : Text}
    (h : ∀ a ∈ r.alternatives, ∀ k ∈ a.conditions, k.holds left right = k.holds left' right') :
    r.output left right = r.output left' right' := by
  have hfind : r.alternatives.find? (·.applies left right) =
      r.alternatives.find? (·.applies left' right') := by
    refine List.find?_congr fun a ha => ?_
    rw [Bool.eq_iff_iff, Alternative.applies, Alternative.applies, List.all_eq_true,
      List.all_eq_true]
    exact forall₂_congr fun k hk => by rw [h a ha k hk]
  rw [output, output, hfind]

/-- What a rule can put out: the default, or what an alternative has in its place. -/
def outputs (r : Rule) : List Text :=
  r.replace :: r.alternatives.map (·.replace)

/-- What a rule puts out is one of its outputs. -/
theorem output_mem_outputs (r : Rule) (left right : Text) : r.output left right ∈ r.outputs := by
  rw [output, outputs]
  split
  · rename_i a ha
    exact List.mem_cons_of_mem _ (List.mem_map_of_mem (List.mem_of_find?_eq_some ha))
  · exact List.mem_cons_self ..

/-- A rule without alternatives has one output. -/
theorem output_of_alternatives_eq_nil {r : Rule} (h : r.alternatives = []) (left right : Text) :
    r.output left right = r.replace := by
  rw [output, h, List.find?_nil]

end Rule

namespace RuleTable

/-- The literals of the exact conditions of a table. -/
def exactLiterals (table : RuleTable) : List Text :=
  table.flatMap (·.exactLiterals)

/-- The exact literals of a rule are exact literals of the table. -/
theorem mem_exactLiterals {table : RuleTable} {r : Rule} {l : Text} (hr : r ∈ table)
    (hl : l ∈ r.exactLiterals) : l ∈ table.exactLiterals :=
  List.mem_flatMap.2 ⟨r, hr, hl⟩

/-- Surroundings that look alike to every condition of a table whose exact literals
are single characters: their nearest characters are of one class, and both or none
of them is such a literal. -/
def Alike (table : RuleTable) (x y : Text) : Prop :=
  LetterClass.ofNeighbour x = LetterClass.ofNeighbour y ∧
    ∀ c, [c] ∈ table.exactLiterals → (c ∈ x.head? ↔ c ∈ y.head?)

/-- **Only the nearest characters count** where exact literals are single characters. -/
theorem output_eq_of_alike {table : RuleTable} (hsingle : ∀ l ∈ table.exactLiterals, l.length = 1)
    {r : Rule} (hr : r ∈ table) {left right left' right' : Text} (hleft : table.Alike left left')
    (hright : table.Alike right right') : r.output left right = r.output left' right' := by
  have hsees : ∀ a ∈ r.alternatives, ∀ k ∈ a.conditions, ∀ x y, table.Alike x y →
      k.sees x = k.sees y := by
    intro a ha k hk x y hxy
    refine Condition.sees_congr hxy.1 fun l hl => ?_
    have hmem := mem_exactLiterals hr (Rule.mem_exactLiterals ha hk hl)
    obtain ⟨c, rfl⟩ := List.length_eq_one_iff.1 (hsingle l hmem)
    have houtward : k.outward [c] = [c] := by
      rw [Condition.outward]
      split <;> rfl
    have hprefix : ∀ z : Text, [c] <+: z ↔ c ∈ z.head? := fun z => by
      cases z <;> simp [List.cons_prefix_cons, eq_comm]
    rw [houtward, hprefix, hprefix]
    exact hxy.2 c hmem
  refine Rule.output_congr fun a ha k hk => ?_
  rw [Condition.holds_eq_sees, Condition.holds_eq_sees]
  cases k.side with
  | before => exact hsees a ha k hk left left' hleft
  | after => exact hsees a ha k hk right right' hright

/-- The literals that exact conditions of a table look for on that side. -/
def literalsOn (side : Side) (table : RuleTable) : List Text :=
  table.flatMap fun r => r.alternatives.flatMap fun a => a.conditions.filterMap (·.literalOn? side)

/-- The literal of an exact condition is listed on the side of the condition. -/
theorem mem_literalsOn {table : RuleTable} {r : Rule} {a : Alternative} {k : Condition} {l : Text}
    (hr : r ∈ table) (ha : a ∈ r.alternatives) (hk : k ∈ a.conditions)
    (hl : k.exactLiteral? = some l) : l ∈ table.literalsOn k.side := by
  refine List.mem_flatMap.2 ⟨r, hr, List.mem_flatMap.2 ⟨a, ha, List.mem_filterMap.2 ⟨k, hk, ?_⟩⟩⟩
  rw [Condition.literalOn?, if_pos rfl, hl]

/-- Texts that no condition on that side tells apart: their nearest characters are of
one class, and both or none of them begins with a literal that is looked for there. -/
def AlikeOn (table : RuleTable) (side : Side) (x y : Text) : Prop :=
  LetterClass.ofNeighbour x = LetterClass.ofNeighbour y ∧
    ∀ l ∈ table.literalsOn side, side.outward l <+: x ↔ side.outward l <+: y

/-- Every text is like itself. -/
theorem AlikeOn.refl (table : RuleTable) (side : Side) (x : Text) : table.AlikeOn side x x :=
  ⟨rfl, fun _ _ => Iff.rfl⟩

/-- **Each side counts by itself.**  Surroundings that are alike on both sides give a
rule the same output. -/
theorem output_eq_of_alikeOn {table : RuleTable} {r : Rule} (hr : r ∈ table)
    {left right left' right' : Text} (hleft : table.AlikeOn .before left left')
    (hright : table.AlikeOn .after right right') : r.output left right = r.output left' right' := by
  have hsees : ∀ a ∈ r.alternatives, ∀ k ∈ a.conditions, ∀ x y, table.AlikeOn k.side x y →
      k.sees x = k.sees y := by
    intro a ha k hk x y hxy
    refine Condition.sees_congr hxy.1 fun l hl => ?_
    rw [k.outward_eq]
    exact hxy.2 l (mem_literalsOn hr ha hk hl)
  refine Rule.output_congr fun a ha k hk => ?_
  rw [Condition.holds_eq_sees, Condition.holds_eq_sees]
  refine hsees a ha k hk _ _ ?_
  cases k.side with
  | before => exact hleft
  | after => exact hright

end RuleTable
end PhoneticBengali
