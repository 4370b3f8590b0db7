/-
# Nothing is left of the romanization

ASCII letters, ASCII digits, the dollar sign and the backtick are the keys that the
romanization is typed with.  No conversion to Bengali puts one out
(`toBengali_any_isKey`):

| a character that is put out | is no key, because |
| --- | --- |
| by a rule | no output of a rule has one |
| as it stands in the text | each key is a literal by itself |

A capital whose case does not matter, such as `A`, is no literal.  But it does not stand
in a text in the case of the rules either: it is lowered, and nothing is lowered to it.
-/

import PhoneticBengali.Proofs.Bundled.Basic
import PhoneticBengali.Proofs.Characters

namespace PhoneticBengali
namespace Bundled

/-- Whether the romanization is typed with a character: an ASCII letter or digit, the
dollar sign or the backtick. -/
def isKey (c : CodePoint) : Bool :=
  c.isAlphanum || c == '$' || c == '\x60'

/-- The codes of the capitals. -/
theorem toNat_of_isUpper {c : Char} (hc : c.isUpper = true) :
    'A'.toNat ≤ c.toNat ∧ c.toNat ≤ 'Z'.toNat := by
  obtain ⟨hfirst, hlast⟩ := of_decide_eq_true hc
  exact ⟨UInt32.le_iff_toNat_le.1 hfirst, UInt32.le_iff_toNat_le.1 hlast⟩

/-- The codes of the small letters. -/
theorem toNat_of_isLower {c : Char} (hc : c.isLower = true) :
    'a'.toNat ≤ c.toNat ∧ c.toNat ≤ 'z'.toNat := by
  obtain ⟨hfirst, hlast⟩ := Bool.and_eq_true_iff.1 hc
  exact ⟨UInt32.le_iff_toNat_le.1 (of_decide_eq_true hfirst),
    UInt32.le_iff_toNat_le.1 (of_decide_eq_true hlast)⟩

/-- Letters and digits are ASCII characters, and none is the one of code zero. -/
theorem toNat_of_isAlphanum {c : Char} (hc : c.isAlphanum = true) :
    0 < c.toNat ∧ c.toNat < 128 := by
  have hrange : ∃ first last : Char, (0 < first.toNat ∧ last.toNat < 128) ∧
      first.toNat ≤ c.toNat ∧ c.toNat ≤ last.toNat := by
    rcases Bool.or_eq_true_iff.1 hc with hletter | hdigit
    · rcases Bool.or_eq_true_iff.1 hletter with hupper | hlower
      · exact ⟨'A', 'Z', by decide, toNat_of_isUpper hupper⟩
      · exact ⟨'a', 'z', by decide, toNat_of_isLower hlower⟩
    · exact ⟨'0', '9', by decide, Char.isDigit_iff_toNat.1 hdigit⟩
  obtain ⟨first, last, ⟨hpos, hascii⟩, hfirst, hlast⟩ := hrange
  exact ⟨hpos.trans_le hfirst, hlast.trans_lt hascii⟩

/-- Keys are ASCII characters, and none is the one of code zero. -/
theorem toNat_of_isKey {c : CodePoint} (hc : isKey c = true) : 0 < c.toNat ∧ c.toNat < 128 := by
  simp only [isKey, Bool.or_eq_true, beq_iff_eq] at hc
  rcases hc with (hc | rfl) | rfl
  · cases c with
    | scalar c => exact toNat_of_isAlphanum hc
    | surrogate n => cases hc
  · decide
  · decide

/-- The keys by their codes: from `a` on they are in the case of the rules, and some rule
matches each that is in this case by itself. -/
theorem keys_ascii : ∀ n < 128, isKey (CodePoint.ofNat n) = true →
    (0x61 ≤ (CodePoint.ofNat n).toNat → fixCaseChar (CodePoint.ofNat n) = CodePoint.ofNat n) ∧
    (fixCaseChar (CodePoint.ofNat n) = CodePoint.ofNat n →
      (table.firstByCode? [CodePoint.ofNat n]).isSome = true) := by
  decide +kernel

/-- The keys by themselves. -/
theorem keys {c : CodePoint} (hc : isKey c = true) :
    (0x61 ≤ c.toNat → fixCaseChar c = c) ∧
    (fixCaseChar c = c → (table.firstByCode? [c]).isSome = true) :=
  forall_ascii (p := fun c => isKey c = true → (0x61 ≤ c.toNat → fixCaseChar c = c) ∧
    (fixCaseChar c = c → (table.firstByCode? [c]).isSome = true)) keys_ascii
    (toNat_of_isKey hc).2 hc

/-- No output of a bundled rule holds a character that can be typed. -/
theorem outputs_all_not_key :
    ∀ r ∈ table, (r.outputs.all (·.all fun c => 128 ≤ c.toNat || !isKey c)) = true := by
  decide +kernel

/-- A key that a text has in the case of the rules is in that case itself: before `a`
nothing else comes to it, and from `a` on it stays as it is. -/
theorem fixCaseChar_of_isKey {c d : CodePoint} (hc : isKey c = true) (h : fixCaseChar d = c) :
    fixCaseChar c = c := by
  have hpos := (toNat_of_isKey hc).1
  rcases lt_or_ge c.toNat 0x61 with hlt | hge
  · obtain rfl : d = c := eq_of_fixCaseChar_lt (by omega) hlt h
    exact h
  · exact (keys hc).1 hge

/-- **No key is copied.** -/
theorem first?_ne_none_of_isKey {c d : CodePoint} (hc : isKey c = true) (h : fixCaseChar d = c) :
    table.first? [c] ≠ none := by
  rw [← RuleTable.firstByCode?_eq, ← Option.isSome_iff_ne_none]
  exact (keys hc).2 (fixCaseChar_of_isKey hc h)

/-- **No key is put out by a rule.** -/
theorem isKey_eq_false_of_mem_outputs {r : Rule} (hr : r ∈ table) {x : Text} (hx : x ∈ r.outputs)
    {c : CodePoint} (hc : c ∈ x) : isKey c = false := by
  rw [← Bool.not_eq_true]
  intro hkey
  have hascii := (toNat_of_isKey hkey).2
  have hnot := List.all_eq_true.1 (List.all_eq_true.1 (outputs_all_not_key r hr) x hx) c hc
  simp only [hkey, Bool.not_true, Bool.or_false, decide_eq_true_eq] at hnot
  omega

/-- **Nothing is left of the romanization.**  Whatever a text holds, its Bengali text has
no ASCII letter, no ASCII digit, no dollar sign and no backtick. -/
theorem toBengali_any_isKey (t : Text) : (table.toBengali t).any isKey = false := by
  rw [List.any_eq_false]
  intro c hc hkey
  rcases RuleTable.mem_toBengali find_ne_nil hc with ⟨hmem, hnone⟩ | ⟨r, hr, x, hx, hcx⟩
  · obtain ⟨d, -, hd⟩ := List.mem_map.1 hmem
    exact first?_ne_none_of_isKey hkey hd hnone
  · have hno := isKey_eq_false_of_mem_outputs hr hx hcx
    rw [hkey] at hno
    cases hno

end Bundled
end PhoneticBengali
