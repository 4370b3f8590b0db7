/-
# Characters that no rule knows

A character is unknown to a table if neither the character nor its lower-case form is a
letter of the romanization or stands in a literal (`RuleTable.IsUnknown`).  It is brought
into the case of the rules like every other, and what it is there is a boundary that no
literal holds.  So it is copied in that case, and the texts on its two sides are converted
one by one (`RuleTable.toBengali_append_unknown`).

| lower-case form of an unknown character | copied is | such as |
| --- | --- | --- |
| the character itself | the character | `€`, `ক` |
| another single character | that one | `é` for `É` |
| several characters | the character | `İ` |
-/

import PhoneticBengali.Proofs.Boundary
import Mathlib.Data.List.Infix

namespace PhoneticBengali

/-- Lowering leads to no other single character. -/
def IsCaseless (c : CodePoint) : Prop :=
  ∀ l, lowerChar c = [l] → l = c

/-- In the case of the rules a character is itself or its lower-case form. -/
theorem fixCaseChar_cases (c : CodePoint) :
    [fixCaseChar c] = [c] ∨ [fixCaseChar c] = lowerChar c := by
  rw [fixCaseChar]
  split
  · rename_i l hl
    split
    · exact .inl rfl
    · exact .inr hl.symm
  · exact .inl rfl

/-- A character without another lower-case form stays as it is. -/
theorem fixCaseChar_of_isCaseless {c : CodePoint} (hc : IsCaseless c) : fixCaseChar c = c := by
  rcases fixCaseChar_cases c with h | h
  · exact (List.cons.inj h).1
  · exact hc _ h.symm

/-- A character whose case does not matter is lowered to a single character. -/
theorem fixCaseChar_eq_of_lowerChar {c l : CodePoint} (hl : lowerChar c = [l])
    (hplain : l ∉ caseSignificant) : fixCaseChar c = l := by
  have hcontains : ¬ caseSignificant.contains l := by rwa [List.contains_iff_mem]
  simp only [fixCaseChar, hl, if_neg hcontains]

/-- The letters whose case matters are letters of the romanization. -/
theorem ofText_caseSignificant :
    ∀ l ∈ caseSignificant, LetterClass.ofText [l] ≠ .punctuation := by
  -- As a test of the list: characters are finitely many, and the statement as it stands
  -- could be decided over all of them.
  have htest : (caseSignificant.all fun l => LetterClass.ofText [l] != .punctuation) = true := by
    decide
  exact fun l hl => by simpa using List.all_eq_true.1 htest l hl

namespace RuleTable

variable {table : RuleTable} {c : CodePoint}

/-- Neither the character nor its lower-case form is a letter of the romanization or
stands in a literal of a rule or of an exact condition. -/
structure IsUnknown (table : RuleTable) (c : CodePoint) : Prop where
  punctuation : ∀ x ∈ [[c], lowerChar c], LetterClass.ofText x = .punctuation
  unmatched : ∀ x ∈ [[c], lowerChar c], ∀ r ∈ table, ¬ x <:+: r.find
  unread : ∀ x ∈ [[c], lowerChar c], ∀ l ∈ table.exactLiterals, ¬ x <:+: l

namespace IsUnknown

/-- What holds of the character and of its lower-case form holds of the character in the
case of the rules. -/
theorem of_forall {p : Text → Prop} (h : ∀ x ∈ [[c], lowerChar c], p x) : p [fixCaseChar c] := by
  rcases fixCaseChar_cases c with hc | hc
  · exact hc ▸ h [c] (by simp)
  · exact hc ▸ h (lowerChar c) (by simp)

/-- No literal holds it in the case of the rules. -/
theorem not_mem_find (hc : table.IsUnknown c) : ∀ r ∈ table, fixCaseChar c ∉ r.find :=
  fun r hr hmem =>
    of_forall (fun x hx => hc.unmatched x hx r hr) ((List.singleton_infix_iff _ _).2 hmem)

/-- So it is a boundary there. -/
theorem isBoundary (hc : table.IsUnknown c) : table.IsBoundary (fixCaseChar c) := by
  refine isBoundary_of_not_mem (of_forall hc.punctuation) hc.not_mem_find fun l hl hmem => ?_
  exact of_forall (fun x hx => hc.unread x hx l hl) ((List.singleton_infix_iff _ _).2 hmem)

/-- An unknown character is none of the letters whose case matters, so a lower-case form
of one character takes its place. -/
theorem fixCaseChar_eq (hc : table.IsUnknown c) {l : CodePoint} (hl : lowerChar c = [l]) :
    fixCaseChar c = l := by
  have hclass : LetterClass.ofText [l] = .punctuation := hc.punctuation [l] (by simp [hl])
  exact fixCaseChar_eq_of_lowerChar hl fun h => ofText_caseSignificant l h hclass

/-- An unknown character is copied in the case of the rules. -/
theorem toBengali_append (hc : table.IsUnknown c) (hfinds : ∀ r ∈ table, r.find ≠ [])
    (u v : Text) :
    table.toBengali (u ++ c :: v) = table.toBengali u ++ fixCaseChar c :: table.toBengali v := by
  have h := hc.isBoundary.output_segments_append hfinds (fixCase u) (fixCase v)
  rw [segments_singleton hfinds hc.not_mem_find] at h
  simpa [toBengali, fixCase, Segment.output] using h

end IsUnknown

/-- A text of unknown characters comes out in the case of the rules. -/
theorem toBengali_eq_fixCase (hfinds : ∀ r ∈ table, r.find ≠ []) {t : Text}
    (ht : ∀ c ∈ t, table.IsUnknown c) : table.toBengali t = fixCase t := by
  induction t with
  | nil => rfl
  | cons c t ih =>
    have hrest := ih fun d hd => ht d (List.mem_cons_of_mem _ hd)
    have h := (ht c (List.mem_cons_self ..)).toBengali_append hfinds [] t
    rwa [List.nil_append, hrest] at h

/-- **Unknown characters pass through**, but for their case.  The texts on the two sides
of one are converted one by one.  It is copied as its lower-case form if that is a single
character, and else as it is; so an unknown character that has no other form in lower case
comes out as it was typed, and so does a text of such characters. -/
theorem toBengali_append_unknown (hfinds : ∀ r ∈ table, r.find ≠ []) :
    (∀ c, table.IsUnknown c →
      (∀ u v, table.toBengali (u ++ c :: v) =
        table.toBengali u ++ fixCaseChar c :: table.toBengali v) ∧
      (∀ l, lowerChar c = [l] → fixCaseChar c = l) ∧
      (IsCaseless c → fixCaseChar c = c)) ∧
    ∀ t, (∀ c ∈ t, table.IsUnknown c) →
      table.toBengali t = fixCase t ∧ ((∀ c ∈ t, IsCaseless c) → table.toBengali t = t) := by
  refine ⟨fun c hc => ⟨hc.toBengali_append hfinds, fun l => hc.fixCaseChar_eq,
    fixCaseChar_of_isCaseless⟩, fun t ht => ⟨toBengali_eq_fixCase hfinds ht, fun hcaseless => ?_⟩⟩
  rw [toBengali_eq_fixCase hfinds ht, fixCase]
  exact (List.map_congr_left fun c hc => fixCaseChar_of_isCaseless (hcaseless c hc)).trans
    (List.map_id t)

end RuleTable

namespace Bundled

/-- The bundled rules do not know `É`. -/
theorem isUnknown_capital_e_acute : table.IsUnknown 'É' where
  punctuation := by decide
  unmatched := by decide +kernel
  unread := by decide +kernel

/-- The hypotheses of `toBengali_append_unknown` are met by the bundled rules and `É`, which
is copied as `é` between two vowels that are converted as at text edges. -/
theorem toBengali_append_unknown_kaea :
    (∀ r ∈ table, r.find ≠ []) ∧ table.IsUnknown 'É' ∧ lowerChar 'É' = "é" ∧
      table.toBengali ['k', 'a', 'É', 'a'] =
        table.toBengali ['k', 'a'] ++ ('é' : CodePoint) :: table.toBengali ['a'] := by
  obtain ⟨hcopied, hcase, -⟩ :=
    (RuleTable.toBengali_append_unknown find_ne_nil).1 'É' isUnknown_capital_e_acute
  have hlower : lowerChar 'É' = "é" := by decide +kernel
  refine ⟨find_ne_nil, isUnknown_capital_e_acute, hlower, ?_⟩
  rw [← hcase 'é' hlower]
  exact hcopied ['k', 'a'] ['a']

/-- An unknown character need not come out as it was typed. -/
theorem toBengali_capital_e_acute :
    (∀ r ∈ table, r.find ≠ []) ∧ table.IsUnknown 'É' ∧
      table.toBengali ([] ++ ('É' : CodePoint) :: []) ≠
        table.toBengali [] ++ ('É' : CodePoint) :: table.toBengali [] :=
  ⟨find_ne_nil, isUnknown_capital_e_acute, by decide +kernel⟩

end Bundled
end PhoneticBengali
