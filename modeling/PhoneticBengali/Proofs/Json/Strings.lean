/-
# Strings of JSON

A text is read from the string that it is written as (`Json.stringTail_escaped`): no
character ends the string or is lost in it, and each one is read from its own escape.
Halves of surrogate pairs stand for themselves, so a string has a form in UTF-8 exactly if
its text has one (`Json.isEncodable_string`).
-/

import PhoneticBengali.Json.Parser
import PhoneticBengali.Json.Printer
import PhoneticBengali.Proofs.Text.Utf8

namespace PhoneticBengali

namespace Text

/-- A hexadecimal digit has its value. -/
theorem hexValue?_hexDigit : ∀ d < 16, hexValue? (hexDigit d) = some d := by
  decide

end Text

namespace Json

/-! ### Parts -/

namespace Part

/-- The part of a string that a code point is written as.  Only a control character
without a letter is spelled by four digits. -/
def of (c : CodePoint) : Part :=
  ⟨c.toNat, (escapeLetter? c).isNone && decide (c.toNat < 0x20)⟩

/-- No half of a pair is spelled by four digits. -/
theorem isLeading_of (c : CodePoint) : (of c).isLeading = false := by
  rw [isLeading, Bool.and_eq_false_iff, Bool.and_eq_false_iff]
  by_cases hsmall : c.toNat < 0x20
  · have hbefore : ¬ 0xD800 ≤ c.toNat := by omega
    exact .inl (.inr (decide_eq_false hbefore))
  · exact .inl (.inl (by rw [of, decide_eq_false hsmall, Bool.and_false]))

/-- **So nothing is joined**: the parts of a text give the text again. -/
theorem join_map_of (t : Text) : join (t.map of) = t := by
  induction t with
  | nil => rfl
  | cons c t ih =>
    have hcode : CodePoint.ofNat (of c).number = c := CodePoint.ofNat_toNat c
    cases t with
    | nil => rw [List.map_singleton, join, hcode]
    | cons d t =>
      rw [List.map_cons, List.map_cons, join, isLeading_of, Bool.false_and,
        if_neg Bool.false_ne_true, hcode, ← List.map_cons, ih]

end Part

/-! ### Escapes -/

/-- A letter after a backslash stands for the character that it was chosen for. -/
theorem unescape?_of_escapeLetter? {c l : CodePoint} (h : escapeLetter? c = some l) :
    l ≠ 'u' ∧ unescape? l = some c := by
  unfold escapeLetter? at h
  split at h
  · rename_i hc
    obtain rfl := Option.some.inj h
    obtain rfl | rfl := hc <;> decide
  split at h
  · obtain rfl := Option.some.inj h
    subst c
    decide
  split at h
  · obtain rfl := Option.some.inj h
    subst c
    decide
  split at h
  · obtain rfl := Option.some.inj h
    subst c
    decide
  split at h
  · rename_i hc
    obtain rfl := Option.some.inj h
    obtain rfl : c = '\x08' := CodePoint.toNat_inj.1 hc
    decide
  split at h
  · rename_i hc
    obtain rfl := Option.some.inj h
    obtain rfl : c = '\x0c' := CodePoint.toNat_inj.1 hc
    decide
  · cases h

/-- A character without a letter does not end or escape anything. -/
theorem ne_of_escapeLetter? {c : CodePoint} (h : escapeLetter? c = none) : c ≠ '"' ∧ c ≠ '\\' := by
  refine ⟨?_, ?_⟩
  all_goals
    rintro rfl
    cases h

/-- Four hexadecimal digits spell the number that they were made of. -/
theorem hexFour?_hexDigits {n : Nat} (h : n < 0x10000) :
    ∃ a b c d, Text.hexDigits 4 n = [a, b, c, d] ∧ hexFour? a b c d = some n := by
  have hdigit : ∀ m, Text.hexValue? (Text.hexDigit (m % 16)) = some (m % 16) := fun m =>
    Text.hexValue?_hexDigit _ (Nat.mod_lt m (by decide))
  refine ⟨_, _, _, _, rfl, ?_⟩
  have hvalue : Numeral.value 16 [n / 16 / 16 / 16 % 16, n / 16 / 16 % 16, n / 16 % 16, n % 16] =
      n := by
    simp only [Numeral.value, List.foldl]
    omega
  simp only [hexFour?, hdigit, Option.bind_eq_bind, Option.bind_some, Option.pure_def, hvalue]

/-- **A character is read from its escape**, whatever follows. -/
theorem parts?_escapeChar (c : CodePoint) (t : Text) :
    parts? (escapeChar c ++ t) = (parts? t).map fun r => (Part.of c :: r.1, r.2) := by
  unfold escapeChar
  -- the three forms: a letter, four digits, the character itself
  split
  · rename_i l hl
    obtain ⟨hu, hc⟩ := unescape?_of_escapeLetter? hl
    have hpart : Part.of c = ⟨c.toNat, false⟩ := by rw [Part.of, hl]; rfl
    rw [List.cons_append, List.singleton_append, parts?, hc, hpart]
    · cases parts? t <;> rfl
    · exact fun _ _ _ _ _ hl _ => hu hl
  · rename_i hnone
    obtain ⟨hquote, hbackslash⟩ := ne_of_escapeLetter? hnone
    have hpart : Part.of c = ⟨c.toNat, decide (c.toNat < 0x20)⟩ := by rw [Part.of, hnone]; rfl
    split
    · rename_i hsmall
      obtain ⟨x, y, z, w, hdigits, hvalue⟩ := hexFour?_hexDigits (n := c.toNat) (by omega)
      rw [hdigits, hpart, decide_eq_true hsmall]
      simp only [List.cons_append, List.nil_append, parts?, hvalue]
      cases parts? t <;> rfl
    · rename_i hlarge
      rw [List.singleton_append, parts?, if_neg (not_or.2 ⟨hlarge, hbackslash⟩), hpart,
        decide_eq_false hlarge]
      · cases parts? t <;> rfl
      · exact hquote
      · exact fun _ _ _ _ _ hc _ => hbackslash hc
      · exact fun _ _ hc _ => hbackslash hc

/-- **A text is read from its string.** -/
theorem stringTail_escaped (t rest : Text) :
    stringTail (t.flatMap escapeChar ++ ('"' : CodePoint) :: rest) = some (t, rest) := by
  have hparts : parts? (t.flatMap escapeChar ++ ('"' : CodePoint) :: rest) =
      some (t.map Part.of, rest) := by
    induction t with
    | nil => rfl
    | cons c t ih =>
      rw [List.flatMap_cons, List.append_assoc, parts?_escapeChar, ih]
      rfl
  rw [stringTail, hparts, Option.map_some]
  dsimp only
  rw [Part.join_map_of]

/-! ### Halves of pairs -/

/-- No letter after a backslash is half of a pair, nor what it stands for. -/
theorem isSurrogate_of_unescape? {l c : CodePoint} (h : unescape? l = some c) :
    c.isSurrogate = false ∧ l.isSurrogate = false := by
  unfold unescape? at h
  split at h
  · rename_i hl
    obtain rfl := Option.some.inj h
    obtain rfl | rfl | rfl := hl <;> exact ⟨rfl, rfl⟩
  · -- five more letters, each for a control character
    split_ifs at h with hl hl hl hl hl <;> obtain rfl := Option.some.inj h <;> subst hl <;>
      exact ⟨rfl, rfl⟩

/-- Hexadecimal digits have a form in UTF-8. -/
theorem isEncodable_hexDigits (width n : Nat) :
    Utf8.isEncodable (Text.hexDigits width n) = true := by
  have hdigit : ∀ d < 16, (Text.hexDigit d).isSurrogate = false := by decide
  induction width generalizing n with
  | zero => rfl
  | succ width ih =>
    rw [Text.hexDigits, Utf8.isEncodable_append, ih, Bool.true_and, Utf8.isEncodable,
      List.all_cons, hdigit _ (Nat.mod_lt n (by decide))]
    rfl

/-- A character has a form in a string if it has one. -/
theorem isEncodable_escapeChar (c : CodePoint) :
    Utf8.isEncodable (escapeChar c) = !c.isSurrogate := by
  unfold escapeChar
  split
  · rename_i l hl
    obtain ⟨hc, hletter⟩ := isSurrogate_of_unescape? (unescape?_of_escapeLetter? hl).2
    rw [hc, Utf8.isEncodable, List.all_cons, List.all_cons, hletter]
    rfl
  · split
    · rename_i hsmall
      cases c with
      | scalar c => exact isEncodable_hexDigits 4 _
      | surrogate n =>
        rw [CodePoint.toNat_surrogate] at hsmall
        omega
    · exact Bool.and_true _

/-- **A string has a form in UTF-8** exactly if its text has one. -/
theorem isEncodable_string (t : Text) : Utf8.isEncodable (string t) = Utf8.isEncodable t := by
  have hquote : Utf8.isEncodable "\"" = true := rfl
  have hescaped : Utf8.isEncodable (t.flatMap escapeChar) = Utf8.isEncodable t := by
    rw [Utf8.isEncodable, List.all_flatMap]
    exact List.all_congr rfl isEncodable_escapeChar
  rw [string, Utf8.isEncodable_append, Utf8.isEncodable_append, hquote, hescaped, Bool.true_and,
    Bool.and_true]

end Json
end PhoneticBengali
