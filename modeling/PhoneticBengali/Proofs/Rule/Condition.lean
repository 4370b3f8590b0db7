/-
# What a condition asks

Asked about the match of a text from `start` to `stop`, a condition looks to its side
and nowhere else.  Not negated, it holds there as follows
(`Condition.holdsAt_meaning`):

| scope | holds when |
| --- | --- |
| `letter .vowel` | the neighbour's lower-case form is a vowel |
| `letter .consonant` | the neighbour's lower-case form is a consonant |
| `letter .punctuation` | there is no neighbour, or its form is neither |
| `exact`, before | the text up to `start` ends with the literal |
| `exact`, after | the text from `stop` on begins with the literal |

A neighbour is thus of one class.  Negation turns the answer around, also where the
literal is longer than the text on its side; but an exact condition without a literal
never holds.
-/

import PhoneticBengali.Proofs.Surroundings
import PhoneticBengali.Proofs.Window

namespace PhoneticBengali

/-- The character next to the match of `t` from `start` to `stop`, if there is one. -/
def Side.neighbour? (t : Text) (start stop : Nat) : Side → Option CodePoint
  | .before => if start = 0 then none else t[start - 1]?
  | .after => t[stop]?

namespace LetterClass

/-- What it takes to be of a class. -/
def Describes : LetterClass → Option CodePoint → Prop
  | .vowel, n => ∃ c ∈ n, ∃ l ∈ vowels, lowerChar c = [l]
  | .consonant, n => ∃ c ∈ n, ∃ l ∈ consonants, lowerChar c = [l]
  | .punctuation, n => ∀ c ∈ n, ∀ l, lowerChar c = [l] → l ∉ vowels ∧ l ∉ consonants

/-- No letter is a vowel and a consonant. -/
theorem not_mem_consonants_of_mem_vowels {l : CodePoint} (hl : l ∈ vowels) : l ∉ consonants := by
  simp only [vowels, List.mem_cons, List.not_mem_nil, or_false] at hl
  rcases hl with rfl | rfl | rfl | rfl | rfl <;> decide

/-- The class of a character that has `l` as its lower-case form. -/
theorem of_eq {c l : CodePoint} (hl : lowerChar c = [l]) :
    of c = if l ∈ vowels then vowel else if l ∈ consonants then consonant else punctuation := by
  simp [of, ofText, lowerCase, hl]

/-- Characters with a longer lower-case form are punctuation. -/
theorem of_eq_punctuation {c : CodePoint} (hc : ∀ l, lowerChar c ≠ [l]) : of c = punctuation := by
  have hform : lowerCase [c] = lowerChar c := List.flatMap_singleton ..
  rw [of, ofText, hform]
  split
  · rename_i l hl
    exact absurd hl (hc l)
  · rfl

/-- What describes a character that has `l` as its lower-case form. -/
theorem describes_some_iff {c l : CodePoint} (hl : lowerChar c = [l]) {k : LetterClass} :
    k.Describes (some c) ↔ match k with
      | vowel => l ∈ vowels
      | consonant => l ∈ consonants
      | punctuation => l ∉ vowels ∧ l ∉ consonants := by
  cases k <;> simp [Describes, hl]

/-- **A neighbour is of the class that describes it**, and of no other. -/
theorem ofNeighbour_eq_iff {t : Text} {k : LetterClass} :
    ofNeighbour t = k ↔ k.Describes t.head? := by
  cases t with
  | nil => cases k <;> simp [ofNeighbour, Describes]
  | cons c t =>
    rw [ofNeighbour, List.head?_cons]
    by_cases hform : ∃ l, lowerChar c = [l]
    · obtain ⟨l, hl⟩ := hform
      rw [of_eq hl, describes_some_iff hl]
      split_ifs with hvowel hconsonant
      · cases k <;> simp [hvowel, not_mem_consonants_of_mem_vowels hvowel]
      · cases k <;> simp [hvowel, hconsonant]
      · cases k <;> simp [hvowel, hconsonant]
    · have hnone : ∀ l, lowerChar c ≠ [l] := fun l hl => hform ⟨l, hl⟩
      rw [of_eq_punctuation hnone]
      cases k <;> simp [Describes, hnone]

end LetterClass

namespace Condition

variable {t : Text} {start stop : Nat}

/-- Offsets inside a text ask about the parts of it that they cut off. -/
theorem holdsAt_eq (k : Condition) (hstart : start ≤ stop) (hstop : stop ≤ t.length) :
    k.holdsAt t start stop = k.holds (t.take start).reverse (t.drop stop) := by
  have hleft : (t.take start).reverse.length = start := by
    rw [List.length_reverse, List.length_take]
    omega
  have hmatch : ((t.drop start).take (stop - start)).length = stop - start := by
    rw [List.length_take, List.length_drop]
    omega
  have htext : (t.take start).reverse.reverse ++ (t.drop start).take (stop - start) ++
      t.drop stop = t := by
    have hrest : t.drop stop = (t.drop start).drop (stop - start) := by
      rw [List.drop_drop, Nat.add_sub_cancel' hstart]
    rw [hrest, List.reverse_reverse, List.append_assoc, List.take_append_drop,
      List.take_append_drop]
  have h := k.holdsAt_eq_holds (t.take start).reverse ((t.drop start).take (stop - start))
    (t.drop stop)
  rwa [htext, hleft, hmatch, Nat.add_sub_cancel' hstart] at h

/-- The nearest character of a part is the neighbour on that side. -/
theorem head?_of (side : Side) (hstart : start ≤ stop) (hstop : stop ≤ t.length) :
    (side.of (t.take start).reverse (t.drop stop)).head? = side.neighbour? t start stop := by
  cases side with
  | before =>
    rw [Side.of, Side.neighbour?, List.head?_reverse, List.getLast?_take]
    split
    · rfl
    · rw [List.getElem?_eq_getElem (by omega), Option.some_or]
  | after => rw [Side.of, Side.neighbour?, List.head?_drop]

/-- The class of the neighbour decides about a class condition. -/
theorem holdsAt_letter (side : Side) (k : LetterClass) (negate : Bool) (literal : Option Text)
    (hstart : start ≤ stop) (hstop : stop ≤ t.length) :
    holdsAt ⟨side, .letter k, negate, literal⟩ t start stop =
      ((LetterClass.ofNeighbour (side.of (t.take start).reverse (t.drop stop)) == k) !=
        negate) := by
  rw [holdsAt_eq _ hstart hstop]
  cases side <;> rfl

/-- What stands on its side decides about an exact condition with a literal. -/
theorem holdsAt_exact (side : Side) {l : Text} (hl : l ≠ []) (negate : Bool) (hstart : start ≤ stop)
    (hstop : stop ≤ t.length) :
    holdsAt ⟨side, .exact, negate, some l⟩ t start stop =
      ((side.outward l).isPrefixOf (side.of (t.take start).reverse (t.drop stop)) != negate) := by
  obtain ⟨c, l, rfl⟩ := List.exists_cons_of_ne_nil hl
  rw [holdsAt_eq _ hstart hstop]
  cases side <;> rfl

/-- **What a condition asks.**  On each side of the match of a text from `start` to
`stop` exactly one class condition holds, that of the class that describes the
neighbour.  An exact condition holds if the text on its side meets the match with the
literal, and never without one.  Negation turns these answers around, but for the
last. -/
theorem holdsAt_meaning (t : Text) {start stop : Nat} (hstart : start ≤ stop)
    (hstop : stop ≤ t.length) :
    (∀ (side : Side) (literal : Option Text),
      (∃! k, holdsAt ⟨side, .letter k, false, literal⟩ t start stop = true) ∧
      ∀ k, (holdsAt ⟨side, .letter k, false, literal⟩ t start stop = true ↔
          k.Describes (side.neighbour? t start stop)) ∧
        holdsAt ⟨side, .letter k, true, literal⟩ t start stop =
          !holdsAt ⟨side, .letter k, false, literal⟩ t start stop) ∧
    (∀ l : Text, l ≠ [] →
      (holdsAt ⟨.before, .exact, false, some l⟩ t start stop = true ↔ l <:+ t.take start) ∧
      (holdsAt ⟨.after, .exact, false, some l⟩ t start stop = true ↔ l <+: t.drop stop) ∧
      ∀ side, holdsAt ⟨side, .exact, true, some l⟩ t start stop =
        !holdsAt ⟨side, .exact, false, some l⟩ t start stop) ∧
    ∀ (side : Side) (negate : Bool) (literal : Option Text), literal = none ∨ literal = some [] →
      holdsAt ⟨side, .exact, negate, literal⟩ t start stop = false := by
  refine ⟨fun side literal => ?_, fun l hl => ⟨?_, ?_, fun side => ?_⟩,
    fun side negate literal hliteral => ?_⟩
  · have hholds : ∀ k, holdsAt ⟨side, .letter k, false, literal⟩ t start stop = true ↔
        LetterClass.ofNeighbour (side.of (t.take start).reverse (t.drop stop)) = k := fun k => by
      rw [holdsAt_letter side k false literal hstart hstop, Bool.bne_false, beq_iff_eq]
    refine ⟨⟨_, (hholds _).2 rfl, fun k hk => ((hholds k).1 hk).symm⟩, fun k => ⟨?_, ?_⟩⟩
    · rw [hholds, LetterClass.ofNeighbour_eq_iff, head?_of side hstart hstop]
    · rw [holdsAt_letter side k true literal hstart hstop,
        holdsAt_letter side k false literal hstart hstop, Bool.bne_true, Bool.bne_false]
  · rw [holdsAt_exact .before hl false hstart hstop, Bool.bne_false, List.isPrefixOf_iff_prefix,
      Side.outward, Side.of, List.reverse_prefix]
  · rw [holdsAt_exact .after hl false hstart hstop, Bool.bne_false, List.isPrefixOf_iff_prefix,
      Side.outward, Side.of]
  · rw [holdsAt_exact side hl true hstart hstop, holdsAt_exact side hl false hstart hstop,
      Bool.bne_true, Bool.bne_false]
  · rcases hliteral with rfl | rfl <;> rfl

/-- `holdsAt_meaning` at the match `a` of `ka`: the Kelvin sign behind it is a consonant, the
text behind it begins with the sign and a backtick, and a literal that is longer than the
text in front of it does not stand there. -/
theorem holdsAt_meaning_ka_kelvin :
    let t : Text := ['k', 'a', '\u212a', '\x60']
    1 ≤ 2 ∧ 2 ≤ t.length ∧
      holdsAt ⟨.after, .letter .consonant, false, none⟩ t (1 : Nat) (2 : Nat) = true ∧
      holdsAt ⟨.after, .exact, false, some ['\u212a', '\x60']⟩ t (1 : Nat) (2 : Nat) = true ∧
      holdsAt ⟨.before, .exact, true, some ['a', 'k']⟩ t (1 : Nat) (2 : Nat) = true ∧
      holdsAt ⟨.before, .exact, true, some []⟩ t (1 : Nat) (2 : Nat) = false := by
  intro t
  obtain ⟨hletter, hexact, hempty⟩ := @holdsAt_meaning t 1 2 (by decide) (by decide)
  refine ⟨by decide, by decide, ?_, ?_, ?_, hempty .before true (some []) (.inr rfl)⟩
  · exact (hletter .after none).2 .consonant |>.1.2 ⟨'\u212a', rfl, 'k', by decide, by decide⟩
  · exact (hexact ['\u212a', '\x60'] (by decide)).2.1.2 (by decide)
  · have hnot : ¬ (['a', 'k'] : Text) <:+ t.take 1 := by decide
    rw [(hexact ['a', 'k'] (by decide)).2.2 .before, Bool.not_eq_true', ← Bool.not_eq_true,
      (hexact ['a', 'k'] (by decide)).1]
    exact hnot

end Condition
end PhoneticBengali
