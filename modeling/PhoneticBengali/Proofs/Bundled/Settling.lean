/-
# Back from Bengali twice

With the bundled rules the romanized text of a romanized text is the text itself.
The literals that lead back from Bengali come in three kinds:

| literal | because of its initial |
| --- | --- |
| `.` `...` `:` `^` `,` | leads to itself, when cleaned up |
| begins with hasanta or `অ` | does not outlive the clean-up |
| any other | is a literal by itself, so it is never copied |

and no initial of the last two kinds is an ASCII character, as all characters of the
outputs are.  So what is put out holds no character that is changed a second time
(`toRoman_toRoman`).
-/

import PhoneticBengali.Proofs.Bundled.Basic
import PhoneticBengali.Proofs.LongestFirst
import PhoneticBengali.Proofs.Settled
import PhoneticBengali.Bundled

namespace PhoneticBengali
namespace Bundled

/-- The outputs of a single character that the rules lead back from. -/
def singles : Text :=
  (table.filter (·.isReversible)).filterMap fun r => match r.replace with
    | [c] => some c
    | _ => none

/-- Each of the single characters listed is the literal of a reverse rule. -/
theorem exists_of_mem_singles {c : CodePoint} (h : c ∈ singles) :
    ∃ s ∈ reverseTable, s.find = [c] := by
  obtain ⟨r, hr, hc⟩ := List.mem_filterMap.1 h
  obtain ⟨hmem, hreversible⟩ := List.mem_filter.1 hr
  refine ⟨r.turned, RuleTable.mem_reverse.2 ⟨r, hmem, hreversible, rfl⟩, ?_⟩
  split at hc
  · rename_i d hd
    exact hd.trans (congrArg ([·]) (Option.some.inj hc))
  · cases hc

/-- The rules back: each begins with a character beyond ASCII that is a literal by
itself or that the clean-up does not keep, or it leads to its own literal. -/
theorem rules_back : ∀ r ∈ table, r.isReversible = true →
    (r.replace.head?.all fun c => 0x80 ≤ c.toNat &&
      (singles.any (·.toNat == c.toNat) || cleanupChar c != [c])) = true ∨
    cleanup r.find = r.replace := by
  decide +kernel

/-- A character that begins a changing literal is not ASCII, and if the clean-up keeps
it, it is a literal. -/
theorem changes_reverseTable {c : CodePoint} (h : reverseTable.Changes c) :
    0x80 ≤ c.toNat ∧ (cleanupChar c = [c] → c ∈ singles) := by
  obtain ⟨s, hs, hc, hchanged⟩ := h
  obtain ⟨r, hr, hreversible, rfl⟩ := RuleTable.mem_reverse.1 hs
  have hhead : r.replace.head? = some c := hc
  have hback := (rules_back r hr hreversible).resolve_right hchanged
  simp only [hhead, Option.all_some, Bool.and_eq_true, decide_eq_true_eq, Bool.or_eq_true,
    List.any_eq_true, beq_iff_eq, CodePoint.toNat_inj, exists_eq_right, bne_iff_ne] at hback
  exact ⟨hback.1, fun hkept => hback.2.resolve_right fun hno => hno hkept⟩

/-- No reverse rule changes an ASCII character. -/
theorem not_changes_of_ascii {c : CodePoint} (hc : c.toNat < 0x80) : ¬ reverseTable.Changes c :=
  fun h => absurd (changes_reverseTable h).1 (Nat.not_le.2 hc)

/-- The romanized vowel letters are ASCII characters. -/
theorem vowelLetters_ascii : ∀ c ∈ vowelLetters, c.toNat < 0x80 := by
  simp [vowelLetters]

/-- The bundled rules lead back to settled texts. -/
theorem isSettling_reverseTable : reverseTable.IsSettling where
  filled _ := RuleTable.find_ne_nil_of_mem_reverse
  outputs s hs c hc := by
    obtain ⟨r, hr, -, rfl⟩ := RuleTable.mem_reverse.1 hs
    refine not_changes_of_ascii ?_
    rcases mem_cleanup hc with hfind | hletter
    · exact of_decide_eq_true (List.all_eq_true.1 (find_ascii r hr) c hfind)
    · exact vowelLetters_ascii c hletter
  letters c hc := not_changes_of_ascii (vowelLetters_ascii c hc)
  initials _ hc hkept := exists_of_mem_singles ((changes_reverseTable hc).2 hkept)

/-- **The way back from Bengali is idempotent.**  Whatever a text holds, a second scan
of its romanized text changes nothing. -/
theorem toRoman_toRoman (t : Text) :
    reverseTable.toRoman (reverseTable.toRoman t) = reverseTable.toRoman t :=
  RuleTable.toRoman_toRoman_of_isSettling isSettling_reverseTable t

end Bundled
end PhoneticBengali
