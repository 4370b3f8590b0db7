/-
# The one division of a text

What a romanized text is converted to can be told without walking over it.  A
division of a text in the case of the rules consists of consecutive pieces
(`RuleTable.IsDivision`):

| piece | begins |
| --- | --- |
| literal of the first rule in table order that matches | where some rule matches |
| single character | where none does |

If no literal is empty, every text has one division (`RuleTable.isDivision_iff`).
Each of its pieces is rewritten by itself (`RuleTable.Yields`):

| piece | yields |
| --- | --- |
| single character that no rule matches | itself |
| literal of a rule with alternatives that apply | the output of the first of them |
| literal of a rule without | the default output |

An alternative applies when all its conditions hold at the offsets of the piece in
the text in the case of the rules, so nothing that has been put out is looked at.
The yields of the pieces, in order, are the Bengali text
(`RuleTable.toBengali_division`).
-/

import PhoneticBengali.Bundled
import PhoneticBengali.Proofs.Segmentation
import PhoneticBengali.Proofs.Window

namespace PhoneticBengali

namespace Alternative

/-- Every condition holds for the match of `t` from `start` to `stop`. -/
def AppliesAt (a : Alternative) (t : Text) (start stop : Nat) : Prop :=
  ∀ k ∈ a.conditions, k.holdsAt t start stop = true

/-- An alternative applies between two texts exactly if it does at the place of the match in
the whole text. -/
theorem applies_iff (a : Alternative) (left x right : Text) :
    a.applies left right = true ↔
      a.AppliesAt (left.reverse ++ x ++ right) left.length (left.length + x.length) := by
  simp only [applies, List.all_eq_true, AppliesAt, Condition.holdsAt_eq_holds]

end Alternative

namespace Rule

/-- What a rule rewrites the match of `t` from `start` to `stop` to. -/
inductive Yields (r : Rule) (t : Text) (start stop : Nat) : Text → Prop where
  | override {a : Alternative} (first : IsFirst (·.AppliesAt t start stop) r.alternatives a) :
      Yields r t start stop a.replace
  | plain (unmet : ∀ a ∈ r.alternatives, ¬ a.AppliesAt t start stop) :
      Yields r t start stop r.replace

/-- A rule yields what it puts out between the surroundings of the match. -/
theorem yields_iff {r : Rule} {left x right out : Text} :
    r.Yields (left.reverse ++ x ++ right) left.length (left.length + x.length) out ↔
      out = r.output left right := by
  have happlies := fun a : Alternative => a.applies_iff left x right
  rw [output]
  constructor
  · intro hyields
    cases hyields with
    | override first => rw [(find?_eq_some_iff_isFirst happlies).2 first]
    | plain unmet =>
      have hnone : r.alternatives.find? (·.applies left right) = none := by
        rw [List.find?_eq_none]
        intro a ha
        rw [happlies]
        exact unmet a ha
      rw [hnone]
  · rintro rfl
    split
    · rename_i a ha
      exact .override ((find?_eq_some_iff_isFirst happlies).1 ha)
    · rename_i hnone
      refine .plain fun a ha => ?_
      rw [← happlies]
      exact List.find?_eq_none.1 hnone a ha

end Rule

namespace RuleTable

open Bundled (plain varied isNot)

/-- What a division of `rest` can begin with. -/
inductive IsPiece (table : RuleTable) (rest : Text) : Text → Prop where
  | literal {r : Rule} (first : IsFirst (·.find <+: rest) table r) : IsPiece table rest r.find
  | single (c : CodePoint) (unmatched : ∀ r ∈ table, ¬ r.find <+: rest) : IsPiece table rest [c]

/-- Consecutive pieces that make up `t`. -/
structure IsDivision (table : RuleTable) (t : Text) (pieces : List Text) : Prop where
  whole : pieces.flatten = t
  each : ∀ before x after, pieces = before ++ x :: after → table.IsPiece (x ++ after.flatten) x

/-- What the piece `x` at offset `start` of `t` is rewritten to. -/
inductive Yields (table : RuleTable) (t : Text) (start : Nat) (x : Text) : Text → Prop where
  | rule {r : Rule} {out : Text} (first : IsFirst (·.find <+: t.drop start) table r)
      (yields : r.Yields t start (start + x.length) out) : Yields table t start x out
  | copy (unmatched : ∀ r ∈ table, ¬ r.find <+: t.drop start) : Yields table t start x x

/-- What consecutive pieces of `t` from offset `start` on are rewritten to: the
yields of all, in order. -/
inductive Rewrites (table : RuleTable) (t : Text) : Nat → List Text → Text → Prop where
  | done (start : Nat) : Rewrites table t start [] []
  | piece {start : Nat} {x out later : Text} {pieces : List Text}
      (yields : table.Yields t start x out)
      (rest : Rewrites table t (start + x.length) pieces later) :
      Rewrites table t start (x :: pieces) (out ++ later)

variable {table : RuleTable}

/-! ### There is one division -/

/-- A piece in front of a division makes a division. -/
theorem IsDivision.cons {x rest : Text} {pieces : List Text} (hx : table.IsPiece (x ++ rest) x)
    (h : table.IsDivision rest pieces) : table.IsDivision (x ++ rest) (x :: pieces) where
  whole := by rw [List.flatten_cons, h.whole]
  each := by
    intro before y after hsplit
    cases before with
    | nil =>
      obtain ⟨rfl, rfl⟩ := List.cons.inj hsplit
      rwa [h.whole]
    | cons b before => exact h.each before y after (List.cons.inj hsplit).2

/-- The pieces behind the first one divide the rest. -/
theorem IsDivision.tail {t x : Text} {pieces : List Text} (h : table.IsDivision t (x :: pieces)) :
    table.IsDivision pieces.flatten pieces where
  whole := rfl
  each := by
    intro before y after hsplit
    exact h.each (x :: before) y after (by rw [hsplit, List.cons_append])

/-- The segments of a cut are a division. -/
theorem isDivision_of_cut {left rest : Text} {segments : List Segment}
    (h : Cut table left rest segments) : table.IsDivision rest (segments.map (·.source)) := by
  induction h with
  | done left => exact ⟨rfl, fun before x after hsplit => absurd hsplit (by simp)⟩
  | literal _ first _ ih => exact ih.cons (.literal (first?_eq_some_iff.1 first))
  | @copy _ _ c _ unmatched _ ih => exact ih.cons (.single c (first?_eq_none_iff.1 unmatched))

/-- And every division is made of the segments of a cut. -/
theorem IsDivision.exists_cut (hfinds : ∀ r ∈ table, r.find ≠ []) {pieces : List Text}
    {rest : Text} (h : table.IsDivision rest pieces) (left : Text) :
    ∃ segments, Cut table left rest segments ∧ segments.map (·.source) = pieces := by
  induction pieces generalizing left rest with
  | nil =>
    obtain rfl : [] = rest := h.whole
    exact ⟨[], .done left, rfl⟩
  | cons x pieces ih =>
    obtain rfl : x ++ pieces.flatten = rest := h.whole
    have hx : table.IsPiece (x ++ pieces.flatten) x := h.each [] x pieces rfl
    obtain ⟨segments, hcut, hsources⟩ := ih h.tail (x.reverse ++ left)
    -- what the pieces behind make up no longer matters, only that it is cut
    generalize pieces.flatten = later at hx hcut
    cases hx with
    | @literal r first =>
      have hfirst := first?_eq_some_iff.2 first
      exact ⟨_, .literal (hfinds r (mem_of_first? hfirst)) hfirst hcut, by simp [hsources]⟩
    | single c unmatched =>
      exact ⟨_, .copy (first?_eq_none_iff.2 unmatched) hcut, by simp [hsources]⟩

/-- **There is one division.**  It consists of what the segments of the text are
made of. -/
theorem isDivision_iff (hfinds : ∀ r ∈ table, r.find ≠ []) {t : Text} {pieces : List Text} :
    table.IsDivision t pieces ↔ pieces = (table.segments t).map (·.source) := by
  constructor
  · intro h
    obtain ⟨cut, hcut, hsources⟩ := h.exists_cut hfinds []
    rw [segments, segmentsFrom_eq hcut, hsources]
  · rintro rfl
    exact isDivision_of_cut (cut_segments hfinds t)

/-! ### What its pieces yield -/

/-- A segment yields its output. -/
theorem yields_iff_output {s : Segment} {out : Text}
    (hrule : s.rule = table.first? (s.source ++ s.right)) :
    table.Yields s.text s.left.length s.source out ↔ out = s.output := by
  constructor
  · intro hyields
    cases hyields with
    | rule first yields =>
      rw [s.drop_text, ← first?_eq_some_iff, ← hrule] at first
      rw [Segment.output, first]
      exact Rule.yields_iff.1 yields
    | copy unmatched =>
      rw [s.drop_text, ← first?_eq_none_iff, ← hrule] at unmatched
      rw [Segment.output, unmatched]
  · rintro rfl
    cases hr : s.rule with
    | some r =>
      rw [Segment.output, hr]
      refine .rule ?_ (Rule.yields_iff.2 rfl)
      rw [s.drop_text, ← first?_eq_some_iff, ← hrule, hr]
    | none =>
      rw [Segment.output, hr]
      refine .copy ?_
      rw [s.drop_text, ← first?_eq_none_iff, ← hrule, hr]

/-- The first piece puts out something, and the others the rest. -/
theorem rewrites_cons_iff {t x out : Text} {start : Nat} {pieces : List Text} :
    table.Rewrites t start (x :: pieces) out ↔ ∃ o later, table.Yields t start x o ∧
      table.Rewrites t (start + x.length) pieces later ∧ out = o ++ later := by
  constructor
  · intro h
    cases h with
    | piece yields rest => exact ⟨_, _, yields, rest, rfl⟩
  · rintro ⟨o, later, yields, rest, rfl⟩
    exact .piece yields rest

/-- With what the pieces behind it are rewritten to, a segment decides what all are
rewritten to. -/
theorem rewrites_cons_iff_output {s : Segment} {pieces : List Text} {later out : Text}
    (hrule : s.rule = table.first? (s.source ++ s.right))
    (hlater : ∀ o, table.Rewrites ((s.source.reverse ++ s.left).reverse ++ s.right)
      (s.source.reverse ++ s.left).length pieces o ↔ o = later) :
    table.Rewrites s.text s.left.length (s.source :: pieces) out ↔ out = s.output ++ later := by
  rw [s.text_behind, s.length_behind] at hlater
  rw [rewrites_cons_iff]
  simp only [yields_iff_output hrule, hlater, exists_eq_left, exists_and_left]

/-- The pieces of a cut are rewritten to the outputs of its segments. -/
theorem rewrites_iff_of_cut {left rest out : Text} {segments : List Segment}
    (h : Cut table left rest segments) :
    table.Rewrites (left.reverse ++ rest) left.length (segments.map (·.source)) out ↔
      out = segments.flatMap Segment.output := by
  induction h generalizing out with
  | done left =>
    constructor
    · intro h
      cases h
      rfl
    · rintro rfl
      exact .done _
  | @literal left rest r _ _ first _ ih =>
    rw [← List.append_assoc]
    exact rewrites_cons_iff_output (s := ⟨left, r.find, rest, some r⟩) first.symm fun _ => ih
  | @copy left rest c _ unmatched _ ih =>
    rw [List.append_cons]
    exact rewrites_cons_iff_output (s := ⟨left, [c], rest, none⟩) unmatched.symm fun _ => ih

/-- **What a text means.**  In a table without empty literals a text in the case of
the rules has exactly one division, and its Bengali text is exactly what the pieces
of this division are rewritten to. -/
theorem toBengali_division (hfinds : ∀ r ∈ table, r.find ≠ []) (t : Text) :
    ∃ pieces, (∀ other, table.IsDivision (fixCase t) other ↔ other = pieces) ∧
      ∀ out, table.Rewrites (fixCase t) 0 pieces out ↔ out = table.toBengali t := by
  refine ⟨(table.segments (fixCase t)).map (·.source), fun other => isDivision_iff hfinds,
    fun out => ?_⟩
  exact rewrites_iff_of_cut (cut_segments hfinds (fixCase t))

/-- The hypothesis of `toBengali_division` is met by three rules.  They divide `Khaa!`
into `kh`, `a`, `a` and a copied `!`, and the second `a`, behind a vowel, is
overridden. -/
theorem toBengali_division_khaa :
    let table : RuleTable := [plain "kh" "খ", plain "k" "ক",
      varied "a" "া" [([isNot .before .consonant], "আ")]]
    let t : Text := "Khaa!"
    let pieces : List Text := ["kh", "a", "a", "!"]
    (∀ r ∈ table, r.find ≠ []) ∧
      (∀ other, table.IsDivision (fixCase t) other ↔ other = pieces) ∧
      ∀ out, table.Rewrites (fixCase t) 0 pieces out ↔ out = "খাআ!" := by
  intro table t pieces
  have hfinds : ∀ r ∈ table, r.find ≠ [] := by decide +kernel
  have htext : table.toBengali t = "খাআ!" := by decide +kernel
  have hdivision : table.IsDivision (fixCase t) pieces :=
    (isDivision_iff hfinds).2 (by decide +kernel)
  obtain ⟨division, hunique, hout⟩ := toBengali_division hfinds t
  obtain rfl := (hunique _).1 hdivision
  rw [htext] at hout
  exact ⟨hfinds, hunique, hout⟩

end RuleTable
end PhoneticBengali
