/-
# The bundled conversions work line by line

| mode | between the lines | line breaks |
| --- | --- | --- |
| to Bengali | a line feed is a separator | no output has one, and lowering reaches none |
| back | no literal holds a line feed | no output has one |
| not supported, or not there yet | the text is left as it is | |

So in every mode lines may be converted one by one or as one text
(`isLinewise_transliterated`).  What is said of line breaks holds of the introducer of
terminal sequences and of halves of surrogate pairs as well
(`special_mem_of_mem_transliterated`).
-/

import PhoneticBengali.Mode
import PhoneticBengali.Proofs.Bundled.Basic
import PhoneticBengali.Proofs.Characters
import PhoneticBengali.Proofs.LongestFirst
import PhoneticBengali.Proofs.Text.Linewise
import PhoneticBengali.Proofs.Typing

namespace PhoneticBengali

/-- Whether a code point ends a line, introduces a terminal sequence or is half of a
surrogate pair. -/
def Text.isSpecial (c : CodePoint) : Bool :=
  isLineBreak c || c == '\x1b' || c.isSurrogate

namespace Bundled

/-- What ends a line is special. -/
theorem isSpecial_of_isLineBreak {c : CodePoint} (hc : Text.isLineBreak c = true) :
    Text.isSpecial c = true := by
  rw [Text.isSpecial, hc, Bool.true_or, Bool.true_or]

/-- No output of a bundled rule holds a special character. -/
theorem outputs_all_not_special :
    ∀ r ∈ table, (r.outputs.all (·.all fun c => !Text.isSpecial c)) = true := by
  decide +kernel

/-- No literal of a bundled rule holds a special character. -/
theorem find_all_not_special : ∀ r ∈ table, (r.find.all fun c => !Text.isSpecial c) = true := by
  decide +kernel

section Rules

variable {r : Rule} {c : CodePoint}

/-- No output of a rule holds a special character. -/
theorem special_not_mem_output (hr : r ∈ table) (hc : Text.isSpecial c = true) {x : Text}
    (hx : x ∈ r.outputs) : c ∉ x := by
  intro hmem
  have hnot := List.all_eq_true.1 (List.all_eq_true.1 (outputs_all_not_special r hr) x hx) c hmem
  simp [hc] at hnot

/-- No literal of a rule holds a special character. -/
theorem special_not_mem_find (hr : r ∈ table) (hc : Text.isSpecial c = true) : c ∉ r.find := by
  intro hmem
  have hnot := List.all_eq_true.1 (find_all_not_special r hr) c hmem
  simp [hc] at hnot

end Rules

/-- No vowel letter is special. -/
theorem vowelLetters_not_special : ∀ c ∈ vowelLetters, Text.isSpecial c = false := by
  decide

/-- The codes of special characters. -/
theorem toNat_of_isSpecial {c : CodePoint} (hc : Text.isSpecial c = true) :
    (0xA ≤ c.toNat ∧ c.toNat ≤ 0x1E) ∨ c.toNat = 0x85 ∨
      (0x2028 ≤ c.toNat ∧ c.toNat ≤ 0x2029) ∨ (0xD800 ≤ c.toNat ∧ c.toNat ≤ 0xDFFF) := by
  rcases Bool.or_eq_true_iff.1 hc with hcontrol | hsurrogate
  · have hescape : ('\x1b' : CodePoint).toNat = 0x1B := rfl
    simp only [Text.isLineBreak, Bool.or_eq_true, Bool.and_eq_true, decide_eq_true_eq,
      beq_iff_eq, ← CodePoint.toNat_inj, hescape] at hcontrol
    omega
  · cases c with
    | scalar c => cases hsurrogate
    | surrogate n =>
      rw [CodePoint.toNat_surrogate]
      omega

/-- A special character comes from itself only. -/
theorem eq_of_fixCaseChar_special {c d : CodePoint} (hc : Text.isSpecial c = true)
    (h : fixCaseChar d = c) : d = c := by
  have hcode := toNat_of_isSpecial hc
  refine eq_of_fixCaseChar_eq (by omega) (fun r hr hreaches => ?_) h
  have hgaps := lowerRanges_gaps r hr
  rw [CaseRange.Reaches] at hreaches
  omega

/-- No conversion to Bengali makes a special character. -/
theorem special_mem_of_mem_toBengali {t : Text} {c : CodePoint} (hc : Text.isSpecial c = true)
    (h : c ∈ table.toBengali t) : c ∈ t := by
  rcases RuleTable.mem_toBengali find_ne_nil h with ⟨hmem, -⟩ | ⟨r, hr, x, hx, hcx⟩
  · obtain ⟨d, hd, hdc⟩ := List.mem_map.1 hmem
    exact eq_of_fixCaseChar_special hc hdc ▸ hd
  · exact absurd hcx (special_not_mem_output hr hc hx)

/-- Nor does the way back. -/
theorem special_mem_of_mem_toRoman {t : Text} {c : CodePoint} (hc : Text.isSpecial c = true)
    (h : c ∈ reverseTable.toRoman t) : c ∈ t := by
  rcases RuleTable.mem_toRoman (fun _ => RuleTable.find_ne_nil_of_mem_reverse) h with
    hmem | hletter | ⟨s, hs, hcs⟩
  · exact hmem
  · rw [vowelLetters_not_special c hletter] at hc
    cases hc
  · obtain ⟨r, hr, -, rfl⟩ := RuleTable.mem_reverse.1 hs
    exact absurd hcs (special_not_mem_find hr hc)

/-- A line feed is a separator of the bundled rules. -/
theorem isSeparator_lineFeed : table.IsSeparator '\n' where
  fixed := by decide
  punctuation := by decide
  unmatched _ hr := special_not_mem_find hr rfl
  unread := by decide +kernel

/-- No literal of the reverse rules holds a line feed. -/
theorem lineFeed_not_mem_find : ∀ s ∈ reverseTable, ('\n' : CodePoint) ∉ s.find := by
  intro s hs
  obtain ⟨r, hr, -, rfl⟩ := RuleTable.mem_reverse.1 hs
  exact special_not_mem_output hr rfl (List.mem_cons_self ..)

/-- Conversion by the bundled rules works line by line. -/
theorem isLinewise_toBengali : Text.IsLinewise table.toBengali where
  nil := rfl
  append_lineFeed := isSeparator_lineFeed.toBengali_append find_ne_nil
  breaks _ _ hc hbreak := special_mem_of_mem_toBengali (isSpecial_of_isLineBreak hbreak) hc

/-- Romanization by the bundled rules works line by line. -/
theorem isLinewise_toRoman : Text.IsLinewise reverseTable.toRoman where
  nil := rfl
  append_lineFeed := RuleTable.toRoman_append (fun _ => RuleTable.find_ne_nil_of_mem_reverse)
    lineFeed_not_mem_find (by decide)
  breaks _ _ hc hbreak := special_mem_of_mem_toRoman (isSpecial_of_isLineBreak hbreak) hc

/-- What a text becomes in the mode of a name, supported or not. -/
def transliterated (mode t : Text) : Text :=
  match Mode.ofName? mode with
  | some m => (({} : Tables).convert m t).value
  | none => t

/-- A mode that is asked for by a name never fails. -/
theorem value_transliterate (mode t : Text) :
    (({} : Tables).transliterate (.str mode) t).value = .ok (transliterated mode t) := by
  rw [Tables.transliterate, Mode.ofDocument?, transliterated]
  cases Mode.ofName? mode with
  | some m => rfl
  | none => rfl

/-- A mode converts to Bengali, back, or not at all. -/
theorem transliterated_cases (mode : Text) :
    transliterated mode = table.toBengali ∨ transliterated mode = reverseTable.toRoman ∨
      transliterated mode = id := by
  cases hmode : Mode.ofName? mode with
  | none => exact .inr (.inr (funext fun t => by simp [transliterated, hmode]))
  | some m =>
    have hconvert : transliterated mode = fun t => (({} : Tables).convert m t).value :=
      funext fun t => by simp [transliterated, hmode]
    rw [hconvert]
    cases m with
    | bengali => exact .inl rfl
    | roman => exact .inr (.inl (by simp only [Tables.convert]))
    | banglish => exact .inr (.inr rfl)
    | lishbang => exact .inr (.inr rfl)

/-- **Every mode works line by line.** -/
theorem isLinewise_transliterated (mode : Text) : Text.IsLinewise (transliterated mode) := by
  rcases transliterated_cases mode with h | h | h <;> rw [h]
  · exact isLinewise_toBengali
  · exact isLinewise_toRoman
  · exact .id

/-- **No mode makes a line break, an introducer or half of a pair.** -/
theorem special_mem_of_mem_transliterated {mode t : Text} {c : CodePoint}
    (hc : Text.isSpecial c = true) (h : c ∈ transliterated mode t) : c ∈ t := by
  rcases transliterated_cases mode with hmode | hmode | hmode <;> rw [hmode] at h
  · exact special_mem_of_mem_toBengali hc h
  · exact special_mem_of_mem_toRoman hc h
  · exact h

end Bundled
end PhoneticBengali
