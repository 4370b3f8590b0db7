/-
# The case of the rules as a normal form

Lowering ends where it leads: no range of the case table holds an image of a range
(`lowerRanges_avoid`), so a character that is the lower-case form of another one is
lowered to itself (`lowerChar_of_lowerChar`).  What a character is in the case of the
rules, itself or its lower-case form, therefore

| has in common with the character | because |
| --- | --- |
| the case of the rules | the one is kept as it is, the other lowered to itself |
| the letter class | that is told by the lower-case form |

A text can be brought into the case of the rules at any time, and as often as one
likes, without a change of what it is converted to, and a letter whose case does not
matter can be typed in any case (`fixCase_normal`).
-/

import PhoneticBengali.Proofs.Characters
import PhoneticBengali.Proofs.Unknown

namespace PhoneticBengali

namespace CaseRange

/-- No image of `r` lies in `s`: the images end before `s` or begin behind it, or both
go in steps of two and pass each other by.  A test of numbers, as the kernel is to
compare all ranges with all. -/
def avoids (r s : CaseRange) : Bool :=
  Nat.blt (r.image + (r.last - r.first)) s.first || Nat.blt s.last r.image ||
    (Nat.beq s.step 2 && (Nat.beq r.step 2 || Nat.beq r.first r.last) &&
      Nat.beq ((r.image + s.first) % 2) 1)

/-- What one range leads to is out of another that avoids it. -/
theorem image?_eq_none_of_avoids {r s : CaseRange} (h : r.avoids s = true) {n m : Nat}
    (hm : r.image? n = some m) : s.image? m = none := by
  rw [image?] at hm
  split at hm
  · rename_i hrange
    obtain rfl := Option.some.inj hm
    rw [image?, if_neg]
    rintro ⟨hfirst, hlast, hstep⟩
    simp only [avoids, Bool.or_eq_true, Bool.and_eq_true, Nat.blt_eq, Nat.beq_eq] at h
    rcases h with (hbefore | hbehind) | ⟨⟨hs, hr⟩, hodd⟩
    · omega
    · omega
    · -- an image is an even number of codes behind the first one, a code of `s` behind its first
      rw [hs] at hstep
      rcases hr with hr | hr
      · rw [hr] at hrange
        omega
      · omega
  · cases hm

/-- A number that no range has is looked up in vain. -/
theorem lookup_eq_none {ranges : List CaseRange} {n : Nat} (h : ∀ s ∈ ranges, s.image? n = none) :
    lookup ranges n = none := by
  induction ranges with
  | nil => rfl
  | cons s ranges ih =>
    obtain ⟨hs, hranges⟩ := List.forall_mem_cons.1 h
    rw [lookup, hs, ih hranges, Option.or_none, ite_self]

end CaseRange

/-- No range leads to a character that another one lowers. -/
theorem lowerRanges_avoid : (lowerRanges.all fun r => lowerRanges.all r.avoids) = true := by
  decide +kernel

/-- **Lowering ends where it leads.** -/
theorem lowerChar_of_lowerChar {c l : CodePoint} (h : lowerChar c = [l]) : lowerChar l = [l] := by
  rcases lowerChar_cases h with rfl | hzero | ⟨r, hr, himage⟩
  · exact h
  · obtain rfl : l = '\x00' := CodePoint.toNat_inj.1 hzero
    decide
  · have hlookup : CaseRange.lookup lowerRanges l.toNat = none :=
      CaseRange.lookup_eq_none fun s hs => CaseRange.image?_eq_none_of_avoids
        (List.all_eq_true.1 (List.all_eq_true.1 lowerRanges_avoid r hr) s hs) himage
    have hsingle : l ≠ '\u0130' := by
      rintro rfl
      have hgaps := lowerRanges_gaps r hr
      have hreaches := CaseRange.reaches_of_image? himage
      have hcode : ('\u0130' : CodePoint).toNat = 0x130 := rfl
      rw [CaseRange.Reaches, hcode] at hreaches
      omega
    rw [lowerChar, if_neg hsingle, hlookup, Option.elim_none]

/-- A lower-case form of one character has no other form in lower case. -/
theorem isCaseless_of_lowerChar {c l : CodePoint} (h : lowerChar c = [l]) : IsCaseless l := by
  intro d hd
  rw [lowerChar_of_lowerChar h] at hd
  exact (List.cons.inj hd).1.symm

/-- A character that is in the case of the rules stays as it is. -/
theorem fixCaseChar_fixCaseChar (c : CodePoint) : fixCaseChar (fixCaseChar c) = fixCaseChar c := by
  rcases fixCaseChar_cases c with h | h
  · have hsame : fixCaseChar c = c := (List.cons.inj h).1
    rw [hsame, hsame]
  · exact fixCaseChar_of_isCaseless (isCaseless_of_lowerChar h.symm)

/-- A text that is in the case of the rules stays as it is. -/
theorem fixCase_fixCase (t : Text) : fixCase (fixCase t) = fixCase t := by
  rw [fixCase, fixCase, List.map_map]
  exact List.map_congr_left fun c _ => fixCaseChar_fixCaseChar c

namespace LetterClass

/-- The lower-case form tells the class. -/
theorem of_congr {c d : CodePoint} (h : lowerChar c = lowerChar d) : of c = of d := by
  simp only [of, ofText, lowerCase, List.flatMap_singleton, h]

/-- **A character keeps its class** in the case of the rules. -/
theorem of_fixCaseChar (c : CodePoint) : of (fixCaseChar c) = of c := by
  rcases fixCaseChar_cases c with h | h
  · rw [(List.cons.inj h).1]
  · exact of_congr ((lowerChar_of_lowerChar h.symm).trans h)

end LetterClass

/-- Texts that differ only in characters with one lower-case form whose case does not
matter are one in the case of the rules. -/
theorem fixCase_congr {t u : Text} (hlength : t.length = u.length)
    (h : ∀ (i : Nat) c d, t[i]? = some c → u[i]? = some d → c ≠ d →
      ∃ l, lowerChar c = [l] ∧ lowerChar d = [l] ∧ l ∉ caseSignificant) :
    fixCase t = fixCase u := by
  refine List.ext_getElem (by simpa [fixCase] using hlength) fun i hi hi' => ?_
  rw [fixCase, List.length_map] at hi hi'
  simp only [fixCase, List.getElem_map]
  by_cases hsame : t[i] = u[i]
  · rw [hsame]
  · obtain ⟨l, hc, hd, hplain⟩ :=
      h i t[i] u[i] (List.getElem?_eq_getElem hi) (List.getElem?_eq_getElem hi') hsame
    rw [fixCaseChar_eq_of_lowerChar hc hplain, fixCaseChar_eq_of_lowerChar hd hplain]

/-- **The case of the rules is a normal form.**  Bringing a text into it keeps the length
and the class of the character at each place, changes nothing the second time, and nothing
of what the text is converted to.  Texts that differ only in characters with one
lower-case form whose case does not matter are converted alike. -/
theorem fixCase_normal (t : Text) :
    (fixCase t).length = t.length ∧ fixCase (fixCase t) = fixCase t ∧
    (∀ i : Nat, (fixCase t)[i]?.map LetterClass.of = t[i]?.map LetterClass.of) ∧
    ∀ rules : RuleTable, rules.toBengali (fixCase t) = rules.toBengali t ∧
      ∀ u : Text, t.length = u.length →
        (∀ (i : Nat) c d, t[i]? = some c → u[i]? = some d → c ≠ d →
          ∃ l, lowerChar c = [l] ∧ lowerChar d = [l] ∧ l ∉ caseSignificant) →
        rules.toBengali t = rules.toBengali u := by
  refine ⟨List.length_map .., fixCase_fixCase t, fun i => ?_, fun rules => ⟨?_, ?_⟩⟩
  · simp only [fixCase, List.getElem?_map, Option.map_map, Function.comp_def,
      LetterClass.of_fixCaseChar]
  · rw [RuleTable.toBengali, fixCase_fixCase, RuleTable.toBengali]
  · intro u hlength h
    rw [RuleTable.toBengali, RuleTable.toBengali, fixCase_congr hlength h]

/-- `fixCase_normal` at a text typed with the Kelvin sign, which is lowered to `k`, and a
capital `A`: it is converted like `ka`. -/
theorem fixCase_normal_kelvin :
    let t : Text := ['\u212a', 'A']
    let u : Text := ['k', 'a']
    t.length = u.length ∧
      (∀ (i : Nat) c d, t[i]? = some c → u[i]? = some d → c ≠ d →
        ∃ l, lowerChar c = [l] ∧ lowerChar d = [l] ∧ l ∉ caseSignificant) ∧
      Bundled.table.toBengali t = Bundled.table.toBengali u := by
  intro t u
  have hcase : ∀ (i : Nat) c d, t[i]? = some c → u[i]? = some d → c ≠ d →
      ∃ l, lowerChar c = [l] ∧ lowerChar d = [l] ∧ l ∉ caseSignificant := by
    intro i c d hc hd _
    match i with
    | 0 =>
      obtain rfl := Option.some.inj hc
      obtain rfl := Option.some.inj hd
      exact ⟨'k', by decide +kernel, by decide +kernel, by decide⟩
    | 1 =>
      obtain rfl := Option.some.inj hc
      obtain rfl := Option.some.inj hd
      exact ⟨'a', by decide +kernel, by decide +kernel, by decide⟩
    | i + 2 => cases hc
  exact ⟨rfl, hcase, ((fixCase_normal t).2.2.2 Bundled.table).2 u rfl hcase⟩

end PhoneticBengali
