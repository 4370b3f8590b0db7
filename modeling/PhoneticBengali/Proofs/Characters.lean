/-
# The characters that a conversion puts out

| conversion | a character that is put out |
| --- | --- |
| to the case of the rules | stands in the text, or is reached by lowering |
| to Bengali | stands in the text in that case, and no rule matches it, or in an output of a rule |
| back to the romanization | is left by the clean-up of one in the text or an output |

A character that no rule puts out and that is not reached by lowering has thus come
from the text.
-/

import PhoneticBengali.Proofs.Settled
import PhoneticBengali.Proofs.Surroundings

namespace PhoneticBengali

namespace CaseRange

/-- `m` lies between the images of the first and of the last code point of a range. -/
def Reaches (r : CaseRange) (m : Nat) : Prop :=
  r.image ≤ m ∧ m ≤ r.image + (r.last - r.first)

/-- What is looked up comes from one of the ranges. -/
theorem exists_image?_of_lookup {ranges : List CaseRange} {n m : Nat}
    (h : lookup ranges n = some m) : ∃ r ∈ ranges, r.image? n = some m := by
  induction ranges with
  | nil => cases h
  | cons r ranges ih =>
    rw [lookup] at h
    split at h
    · cases h
    · rcases Option.or_eq_some_iff.1 h with himage | ⟨-, hlookup⟩
      · exact ⟨r, List.mem_cons_self .., himage⟩
      · obtain ⟨s, hs, hm⟩ := ih hlookup
        exact ⟨s, List.mem_cons_of_mem _ hs, hm⟩

/-- A range reaches what it leads to. -/
theorem reaches_of_image? {r : CaseRange} {n m : Nat} (h : r.image? n = some m) : r.Reaches m := by
  rw [image?] at h
  split at h
  · rename_i hrange
    rw [← Option.some.inj h, Reaches]
    omega
  · cases h

end CaseRange

/-- What holds of all codes below 128 holds of all ASCII characters. -/
theorem forall_ascii {p : CodePoint → Prop} (h : ∀ n < 128, p (CodePoint.ofNat n)) {c : CodePoint}
    (hc : c.toNat < 128) : p c := by
  have hcode := h c.toNat hc
  rwa [CodePoint.ofNat_toNat] at hcode

/-- A number makes a code point with this number, or the one with number 0. -/
theorem toNat_ofNat (n : Nat) : (CodePoint.ofNat n).toNat = n ∨ (CodePoint.ofNat n).toNat = 0 := by
  by_cases h : n < 0x110000
  · exact .inl (CodePoint.toNat_ofNat h)
  · have hvalid : ¬ n.isValidChar := by simp only [Nat.isValidChar]; omega
    rw [CodePoint.ofNat, dif_neg (by omega), Char.ofNat, dif_neg hvalid]
    exact .inr rfl

/-- A lower-case form of one character is the character itself or its image under a range. -/
theorem lowerChar_cases {c l : CodePoint} (h : lowerChar c = [l]) :
    l = c ∨ l.toNat = 0 ∨ ∃ r ∈ lowerRanges, r.image? c.toNat = some l.toNat := by
  rw [lowerChar] at h
  split at h
  · cases h
  · obtain rfl := (List.cons.inj h).1
    cases hlookup : CaseRange.lookup lowerRanges c.toNat with
    | none => exact .inl rfl
    | some m =>
      obtain ⟨r, hr, himage⟩ := CaseRange.exists_image?_of_lookup hlookup
      rcases toNat_ofNat m with hcode | hcode
      · exact .inr (.inr ⟨r, hr, himage.trans (congrArg some hcode.symm)⟩)
      · exact .inr (.inl hcode)

/-- A character that lowering does not reach comes from itself only. -/
theorem eq_of_lowerChar_eq {c d : CodePoint} (hc : c.toNat ≠ 0)
    (hunreached : ∀ r ∈ lowerRanges, ¬ r.Reaches c.toNat) (h : lowerChar d = [c]) : d = c := by
  rcases lowerChar_cases h with hsame | hzero | ⟨r, hr, himage⟩
  · exact hsame.symm
  · exact absurd hzero hc
  · exact absurd (CaseRange.reaches_of_image? himage) (hunreached r hr)

/-- What no range reaches is in the case of the rules only if it was typed. -/
theorem eq_of_fixCaseChar_eq {c d : CodePoint} (hc : c.toNat ≠ 0)
    (hunreached : ∀ r ∈ lowerRanges, ¬ r.Reaches c.toNat) (h : fixCaseChar d = c) : d = c := by
  rw [fixCaseChar] at h
  split at h
  · rename_i l hl
    split at h
    · exact h
    · exact eq_of_lowerChar_eq hc hunreached (h ▸ hl)
  · exact h

/-- The gaps that lowering leaves: nothing comes to a character before `a`, to a line
break, to the one character with a longer lower-case form, to a character of the Bengali
block or to half of a surrogate pair. -/
theorem lowerRanges_gaps : ∀ r ∈ lowerRanges, 0x60 < r.image ∧
    (r.image + (r.last - r.first) < 0x85 ∨ 0x85 < r.image) ∧
    (r.image + (r.last - r.first) < 0x130 ∨ 0x130 < r.image) ∧
    (r.image + (r.last - r.first) < 0x980 ∨ 0x9FF < r.image) ∧
    (r.image + (r.last - r.first) < 0x2028 ∨ 0x2029 < r.image) ∧
    (r.image + (r.last - r.first) < 0xD800 ∨ 0xDFFF < r.image) := by
  decide +kernel

/-- A character before `a` comes from itself only. -/
theorem eq_of_fixCaseChar_lt {c d : CodePoint} (hzero : c.toNat ≠ 0) (hc : c.toNat < 0x61)
    (h : fixCaseChar d = c) : d = c := by
  refine eq_of_fixCaseChar_eq hzero (fun r hr hreaches => ?_) h
  have hgaps := lowerRanges_gaps r hr
  rw [CaseRange.Reaches] at hreaches
  omega

/-- A segment stands in the text that is cut. -/
theorem Cut.source_subset {table : RuleTable} {t : Text} {segments : List Segment}
    (h : Cut table [] t segments) {s : Segment} (hs : s ∈ segments) : s.source ⊆ t := by
  intro c hc
  have htext := h.text_eq hs
  rw [List.reverse_nil, List.nil_append] at htext
  rw [← htext]
  simp [hc]

namespace RuleTable

variable {table : RuleTable} {t : Text} {c : CodePoint}

/-- A converted text holds characters of the text that no literal begins with, and those of
outputs. -/
theorem mem_toBengali (hfinds : ∀ r ∈ table, r.find ≠ []) (hc : c ∈ table.toBengali t) :
    (c ∈ fixCase t ∧ table.first? [c] = none) ∨ ∃ r ∈ table, ∃ x ∈ r.outputs, c ∈ x := by
  have hcut := cut_segments hfinds (fixCase t)
  obtain ⟨s, hs, hcs⟩ := List.mem_flatMap.1 hc
  cases hr : s.rule with
  | none =>
    rw [Segment.output, hr] at hcs
    obtain ⟨d, hd, hunmatched⟩ := hcut.source_eq_singleton hs hr
    obtain rfl : c = d := by simpa [hd] using hcs
    exact .inl ⟨hcut.source_subset hs hcs, hunmatched⟩
  | some r =>
    rw [Segment.output, hr] at hcs
    exact .inr ⟨r, hcut.rule_mem hs hr, _, r.output_mem_outputs _ _, hcs⟩

/-- A romanized text holds characters of the text, vowel letters and characters of
outputs. -/
theorem mem_toRoman (hfinds : ∀ r ∈ table, r.find ≠ []) (hc : c ∈ table.toRoman t) :
    c ∈ t ∨ c ∈ vowelLetters ∨ ∃ r ∈ table, c ∈ r.replace := by
  have hcut := cut_segments hfinds t
  rw [hcut.toRoman_eq] at hc
  rcases mem_cleanup hc with hout | hletter
  · obtain ⟨s, hs, hcs⟩ := List.mem_flatMap.1 hout
    cases hr : s.rule with
    | none =>
      rw [Segment.plainOutput, hr] at hcs
      exact .inl (hcut.source_subset hs hcs)
    | some r =>
      rw [Segment.plainOutput, hr] at hcs
      exact .inr (.inr ⟨r, hcut.rule_mem hs hr, hcs⟩)
  · exact .inr (.inl hletter)

end RuleTable
end PhoneticBengali
