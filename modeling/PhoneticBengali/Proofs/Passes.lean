/-
# Passes that make progress

The forward scan goes over a text in passes.  A pass begins at a cursor, looks up the
first rule that matches there and leaves the cursor behind its literal, or behind a
single character where no rule matches (`RuleTable.pass`).  A rule with an empty
literal leaves the cursor where it is, and then the passes never come to an end
(`RuleTable.not_passes_of_find_eq_nil`).

Without empty literals every pass takes at least one character (`RuleTable.lt_pass`).
So a text of `n` characters is done after `n` passes at the latest, and what they put
out is its Bengali text (`RuleTable.exists_passes`).  A reverse table has no empty
literals whatever table it is made of, so its scan of `n` characters takes at most `n`
passes of the `2n` it is granted (`RuleTable.scanReverse_reverse`).
-/

import PhoneticBengali.Proofs.LongestFirst
import PhoneticBengali.Proofs.ReverseScan

namespace PhoneticBengali

/-- A text in the case of the rules is as long as it was. -/
@[simp]
theorem length_fixCase (t : Text) : (fixCase t).length = t.length :=
  List.length_map ..

namespace RuleTable

/-- What a pass over `t` at `cursor` puts out, and where the next pass begins. -/
def pass (table : RuleTable) (t : Text) (cursor : Nat) : Text × Nat :=
  match table.first? (t.drop cursor) with
  | some r =>
    (r.output (t.take cursor).reverse (t.drop (cursor + r.find.length)), cursor + r.find.length)
  | none => ((t.drop cursor).take 1, cursor + 1)

/-- The passes over `t` from `cursor` on put out `outputs`, one each, and come to the end
of `t`. -/
inductive Passes (table : RuleTable) (t : Text) : Nat → List Text → Prop where
  | done {cursor : Nat} (h : t.length ≤ cursor) : Passes table t cursor []
  | pass {cursor : Nat} {outputs : List Text} (h : cursor < t.length)
      (later : Passes table t (table.pass t cursor).2 outputs) :
      Passes table t cursor ((table.pass t cursor).1 :: outputs)

variable {table : RuleTable}

/-- **An empty literal stops the scan for good.** -/
theorem not_passes_of_find_eq_nil {t : Text} {cursor : Nat} {r : Rule}
    (hr : table.first? (t.drop cursor) = some r) (hempty : r.find = [])
    (hcursor : cursor < t.length) (outputs : List Text) : ¬ table.Passes t cursor outputs := by
  have hstay : (table.pass t cursor).2 = cursor := by
    rw [RuleTable.pass, hr]
    show cursor + r.find.length = cursor
    rw [hempty, List.length_nil, Nat.add_zero]
  -- each pass would begin where the one before it did, and the list of outputs is finite
  induction outputs with
  | nil =>
    intro hpasses
    cases hpasses with
    | done h => omega
  | cons out outputs ih =>
    intro hpasses
    cases hpasses with
    | pass h later =>
      rw [hstay] at later
      exact ih later

/-- **A pass takes at least one character** where no literal is empty. -/
theorem lt_pass (hfinds : ∀ r ∈ table, r.find ≠ []) (t : Text) (cursor : Nat) :
    cursor < (table.pass t cursor).2 := by
  rw [RuleTable.pass]
  split
  · rename_i r hr
    have hlength := List.length_pos_iff.2 (hfinds r (mem_of_first? hr))
    show cursor < cursor + r.find.length
    omega
  · exact Nat.lt_succ_self cursor

/-- And none beyond the end of the text. -/
theorem pass_le {t : Text} {cursor : Nat} (hcursor : cursor < t.length) :
    (table.pass t cursor).2 ≤ t.length := by
  rw [RuleTable.pass]
  split
  · rename_i r hr
    have hlength := (prefix_of_first? hr).length_le
    rw [List.length_drop] at hlength
    show cursor + r.find.length ≤ t.length
    omega
  · exact hcursor

/-- A pass over a literal. -/
theorem pass_literal {s : Segment} {r : Rule} (hr : s.rule = some r) (hsource : s.source = r.find)
    (hrule : s.rule = table.first? (s.source ++ s.right)) :
    table.pass s.text s.left.length = (s.output, s.left.length + s.source.length) := by
  have hfirst : table.first? (s.text.drop s.left.length) = some r := by
    rw [s.drop_text, ← hrule, hr]
  rw [RuleTable.pass, hfirst, Segment.output, hr]
  show (r.output (s.text.take s.left.length).reverse _, _) = _
  rw [← hsource, s.take_text, s.drop_text_behind, List.reverse_reverse]

/-- A pass over a single character. -/
theorem pass_copy {s : Segment} (hr : s.rule = none) (hsource : s.source.length = 1)
    (hrule : s.rule = table.first? (s.source ++ s.right)) :
    table.pass s.text s.left.length = (s.output, s.left.length + s.source.length) := by
  have hfirst : table.first? (s.text.drop s.left.length) = none := by
    rw [s.drop_text, ← hrule, hr]
  rw [RuleTable.pass, hfirst, Segment.output, hr]
  show ((s.text.drop s.left.length).take 1, s.left.length + 1) = _
  rw [s.drop_text, ← hsource, List.take_left]

/-- A pass that puts out a segment goes before the passes behind it. -/
theorem passes_cons {s : Segment} {outputs : List Text} (hsource : s.source ≠ [])
    (hpass : table.pass s.text s.left.length = (s.output, s.left.length + s.source.length))
    (later : table.Passes ((s.source.reverse ++ s.left).reverse ++ s.right)
      (s.source.reverse ++ s.left).length outputs) :
    table.Passes s.text s.left.length (s.output :: outputs) := by
  have hcursor : s.left.length < s.text.length := by
    have := List.length_pos_iff.2 hsource
    simp only [Segment.text, List.length_append, List.length_reverse]
    omega
  rw [s.text_behind, s.length_behind] at later
  have hlater : table.Passes s.text (table.pass s.text s.left.length).2 outputs := by
    rwa [hpass]
  have h := Passes.pass hcursor hlater
  rwa [hpass] at h

/-- The passes over a text put out its segments. -/
theorem passes_of_cut {left rest : Text} {segments : List Segment}
    (h : Cut table left rest segments) :
    table.Passes (left.reverse ++ rest) left.length (segments.map Segment.output) := by
  induction h with
  | done left => exact .done (by simp)
  | @literal left rest r _ filled first _ ih =>
    rw [← List.append_assoc]
    have hpass := pass_literal (s := ⟨left, r.find, rest, some r⟩) rfl rfl first.symm
    exact passes_cons filled hpass ih
  | @copy left rest c _ unmatched _ ih =>
    rw [List.append_cons]
    have hpass := pass_copy (s := ⟨left, [c], rest, none⟩) rfl rfl unmatched.symm
    exact passes_cons (List.cons_ne_nil c []) hpass ih

/-- **The passes come to an end** where no literal is empty, after no more of them than
the text has characters, and put out its Bengali text. -/
theorem exists_passes (hfinds : ∀ r ∈ table, r.find ≠ []) (t : Text) :
    ∃ outputs, table.Passes (fixCase t) 0 outputs ∧ outputs.length ≤ t.length ∧
      table.toBengali t = outputs.flatten := by
  have hcut := cut_segments hfinds (fixCase t)
  refine ⟨(table.segments (fixCase t)).map Segment.output, passes_of_cut hcut, ?_, ?_⟩
  · have hlength := hcut.length_le
    rwa [List.length_map, ← length_fixCase]
  · rw [toBengali, List.flatMap_def]

/-- **A reverse scan ends in time.**  It is granted twice as many passes as the text has
characters and needs no more than one for each. -/
theorem scanReverse_reverse (table : RuleTable) (t : Text) :
    (table.reverse.scanReverse t).truncated = false ∧
      (table.reverse.scanReverse t).iterations ≤ t.length := by
  have hcut := cut_segments_reverse table t
  have hlength := hcut.length_le
  rw [scanReverse, course, hcut.courseWithin_eq (by omega)]
  refine ⟨rfl, ?_⟩
  show (List.map Segment.plainOutput _).length + 0 ≤ t.length
  rwa [List.length_map]

end RuleTable
end PhoneticBengali
