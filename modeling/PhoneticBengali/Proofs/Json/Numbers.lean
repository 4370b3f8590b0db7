/-
# Numbers of JSON

Integers and floating-point numbers are read from what they are written as
(`Json.number?_ofInt`, `Json.number?_float`), if no number goes on behind them.  The
reader goes through a spelling part by part:

| part | read by | ends before |
| --- | --- | --- |
| digits of the whole | `digits` | a point, an exponent or the end |
| fraction | `fraction?` | an exponent or the end |
| exponent | `exponent?` | the end |
-/

import PhoneticBengali.Json.Parser
import PhoneticBengali.Json.Printer
import PhoneticBengali.Proofs.Number.Shortest

namespace PhoneticBengali
namespace Json

/-! ### Digits -/

/-- No digit is in front of a text. -/
def EndsDigits (t : Text) : Prop :=
  ∀ c ∈ t.head?, Numeral.digitValue? c = none

/-- No number goes on in front of a text. -/
def Ends (t : Text) : Prop :=
  ∀ c ∈ t.head?, Numeral.digitValue? c = none ∧ c ≠ '.' ∧ c ≠ 'e' ∧ c ≠ 'E'

/-- What ends a number ends its digits. -/
theorem Ends.endsDigits {t : Text} (h : Ends t) : EndsDigits t :=
  fun c hc => (h c hc).1

/-- Digits are read back up to what ends them. -/
theorem digits_map_digit {ds : List Nat} (hds : ∀ d ∈ ds, d < 10) {rest : Text}
    (h : EndsDigits rest) : digits (ds.map Numeral.digit ++ rest) = (ds, rest) := by
  induction ds with
  | nil =>
    cases rest with
    | nil => rfl
    | cons c rest =>
      rw [List.map_nil, List.nil_append, digits, h c rfl]
  | cons d ds ih =>
    have hlater := ih fun e he => hds e (List.mem_cons_of_mem d he)
    rw [List.map_cons, List.cons_append, digits,
      Numeral.digitValue?_digit d (hds d (List.mem_cons_self ..)), hlater]

/-- No digit is taken for the beginning of an infinity or for a sign. -/
theorem digit_ne : ∀ d < 10, Numeral.digit d ≠ 'I' ∧ Numeral.digit d ≠ '-' := by
  decide

/-! ### The whole -/

section Whole

variable {ds : List Nat} (hds : Numeral.IsWhole ds)
include hds

/-- What begins with digits has no sign in front. -/
theorem number?_whole (t : Text) :
    number? (ds.map Numeral.digit ++ t) = unsigned? false (ds.map Numeral.digit ++ t) := by
  obtain ⟨d, hd, later, rfl⟩ := hds.exists_cons
  exact number?.eq_2 _ fun _ heq => (digit_ne d hd).2 (List.cons.inj heq).1

/-- What begins with digits is no word. -/
theorem unsigned?_whole (negative : Bool) (t : Text) :
    unsigned? negative (ds.map Numeral.digit ++ t) =
      numeral? negative (ds.map Numeral.digit ++ t) := by
  obtain ⟨d, hd, later, rfl⟩ := hds.exists_cons
  rw [List.map_cons, List.cons_append, unsigned?]
  have hword : ∀ u, infinity? (Numeral.digit d :: u) = none := by
    intro u
    unfold infinity?
    split
    · rename_i heq
      exact absurd (List.cons.inj heq).1 (digit_ne d hd).1
    · rfl
  rw [hword]

/-- The whole is read, and the fraction and the exponent are left to be read. -/
theorem numeral?_whole (negative : Bool) {rest : Text} (h : EndsDigits rest) :
    numeral? negative (ds.map Numeral.digit ++ rest) = (do
      let (part, t') ← fraction? rest
      let (exponent, t'') ← exponent? t'
      if part.isEmpty ∧ exponent.isNone then
        if Numeral.digitLimit < ds.length then none
        let n : Int := Numeral.value 10 ds
        return (.int (if negative then -n else n), t'')
      else
        let d := Decimal.ofDigits (ds ++ part) (exponent.getD 0 - part.length)
        return (.float (.ofDecimal negative d), t'')) := by
  have hlone : ¬ (ds.isEmpty = true ∨ (ds.length > 1 ∧ ds.head? = some 0)) := by
    rintro (hnil | ⟨hlong, hhead⟩)
    · exact hds.ne_nil (List.isEmpty_iff.1 hnil)
    · rw [hds.head hhead] at hlong
      exact Nat.lt_irrefl 1 hlong
  rw [numeral?, digits_map_digit hds.digits h]
  dsimp only
  rw [if_neg hlone]

end Whole

/-! ### Fractions and exponents -/

/-- Without a point there is no fraction. -/
theorem fraction?_of_ne {t : Text} (h : ∀ c ∈ t.head?, c ≠ '.') : fraction? t = some ([], t) := by
  unfold fraction?
  split
  · exact absurd rfl (h '.' rfl)
  · rfl

/-- Where the number ends there is no exponent. -/
theorem exponent?_of_ends {t : Text} (h : Ends t) : exponent? t = some (none, t) := by
  cases t with
  | nil => rfl
  | cons c t =>
    obtain ⟨-, -, hlower, hupper⟩ := h c rfl
    unfold exponent?
    exact if_neg (not_or.2 ⟨hlower, hupper⟩)

/-- A fraction is read, if there is one, and no digit was in front of it. -/
theorem fraction?_part {ds : List Nat} (hds : ∀ d ∈ ds, d < 10) {rest : Text}
    (h : EndsDigits rest) (hpoint : ∀ c ∈ rest.head?, c ≠ '.') :
    ∃ t, (if ds.isEmpty then [] else ('.' : CodePoint) :: ds.map Numeral.digit) ++ rest = t ∧
      EndsDigits t ∧ fraction? t = some (ds, rest) := by
  refine ⟨_, rfl, ?_⟩
  cases ds with
  | nil => exact ⟨h, fraction?_of_ne hpoint⟩
  | cons d ds =>
    have hread : fraction? ('.' :: ((d :: ds).map Numeral.digit ++ rest)) =
        some (d :: ds, rest) := by
      rw [fraction?, digits_map_digit hds h]
      rfl
    exact ⟨by rintro c ⟨⟩; rfl, hread⟩

/-- An exponent is read back, sign and all. -/
theorem exponent?_exponentText (e : Int) {rest : Text} (h : EndsDigits rest) :
    exponent? (Decimal.exponentText e ++ rest) = some (some e, rest) := by
  obtain ⟨ds, htext, hlt, hne, hvalue⟩ := Decimal.exponentText_eq e
  have hdigits : ∀ sign : Int, exponentDigits? sign (ds.map Numeral.digit ++ rest) =
      some (some (sign * e.natAbs), rest) := by
    intro sign
    rw [exponentDigits?, digits_map_digit hlt h, hvalue]
    exact if_neg (by simpa using hne)
  rw [htext]
  by_cases he : e < 0
  · have hsize : -1 * (e.natAbs : Int) = e := by omega
    rw [if_pos he]
    exact (hdigits (-1)).trans (by rw [hsize])
  · have hsize : 1 * (e.natAbs : Int) = e := by omega
    rw [if_neg he]
    exact (hdigits 1).trans (by rw [hsize])

/-- An exponent is read, if there is one, and neither a digit nor a point was in front of
it. -/
theorem exponent?_getD (e : Option Int) {rest : Text} (h : Ends rest) :
    ∃ t, (e.map Decimal.exponentText).getD [] ++ rest = t ∧ EndsDigits t ∧
      (∀ c ∈ t.head?, c ≠ '.') ∧ exponent? t = some (e, rest) := by
  refine ⟨_, rfl, ?_⟩
  cases e with
  | none => exact ⟨h.endsDigits, fun c hc => (h c hc).2.1, exponent?_of_ends h⟩
  | some e =>
    have hread := exponent?_exponentText e h.endsDigits
    obtain ⟨ds, htext, -⟩ := Decimal.exponentText_eq e
    rw [Option.map_some, Option.getD_some]
    refine ⟨?_, ?_, hread⟩
    all_goals
      rw [htext]
      rintro c ⟨⟩
      decide

/-! ### Numerals -/

section Numerals

variable (negative : Bool) {rest : Text} (h : Ends rest)
include h

/-- A natural number is read after its sign, if it has no more digits than are
converted. -/
theorem unsigned?_ofNat {n : Nat} (hshort : n < 10 ^ Numeral.digitLimit) :
    unsigned? negative (Numeral.ofNat n ++ rest) =
      some (.int (if negative then -(n : Int) else n), rest) := by
  obtain ⟨ds, hds, hwhole, hvalue⟩ := Numeral.ofNat_eq n
  have hpoint := fraction?_of_ne fun c hc => (h c hc).2.1
  have hlength : ¬ Numeral.digitLimit < ds.length := Nat.not_lt.2 <|
    hwhole.length_le (by decide +kernel) (hvalue.symm ▸ hshort)
  rw [hds, unsigned?_whole hwhole, numeral?_whole hwhole negative h.endsDigits, hpoint]
  simp only [Option.bind_eq_bind, Option.bind_some, exponent?_of_ends h, hvalue,
    if_neg hlength]
  rfl

/-- A floating-point number is read after its sign. -/
theorem unsigned?_spelling {s : Decimal.Spelling} (hs : s.IsFloat) :
    unsigned? negative (s.text ++ rest) =
      some (.float (.ofDecimal negative s.decimal), rest) := by
  obtain ⟨later, hlater, hdigit, hpoint, hexponent⟩ := exponent?_getD s.exponent h
  obtain ⟨behind, hbehind, hdigit', hfraction⟩ := fraction?_part hs.part hdigit hpoint
  have hfloat : ¬ (s.part.isEmpty = true ∧ s.exponent.isNone = true) := by
    rintro ⟨hpart, hnone⟩
    obtain h | h := hs.isFloat
    · exact h (List.isEmpty_iff.1 hpart)
    · rw [Option.isNone_iff_eq_none.1 hnone] at h
      cases h
  rw [Decimal.Spelling.text, List.append_assoc, List.append_assoc, hlater, hbehind,
    unsigned?_whole hs.whole, numeral?_whole hs.whole negative hdigit', hfraction]
  simp only [Option.bind_eq_bind, Option.bind_some, hexponent]
  rw [if_neg hfloat]
  rfl

end Numerals

/-- An integer of no more digits than are converted is read from its spelling. -/
theorem number?_ofInt {n : Int} (hshort : Numeral.isLong n = false) {rest : Text} (h : Ends rest) :
    number? (Numeral.ofInt n ++ rest) = some (.int n, rest) := by
  have hsize := Numeral.isLong_eq_false_iff.1 hshort
  cases n with
  | ofNat n =>
    have hread := unsigned?_ofNat false h (n := n) hsize
    obtain ⟨ds, hds, hwhole, -⟩ := Numeral.ofNat_eq n
    rw [hds] at hread
    rw [Numeral.ofInt, hds, number?_whole hwhole]
    exact hread
  | negSucc n =>
    rw [Numeral.ofInt, List.cons_append, number?, unsigned?_ofNat true h (n := n + 1) hsize]
    rfl

/-- A finite floating-point number is spelled by its sign and its size. -/
theorem exists_float_eq (negative : Bool) {size : Magnitude} (h : size ≠ .infinity) :
    ∃ s : Decimal.Spelling, s.IsFloat ∧ s.decimal.magnitude = size ∧
      float (.signed negative size) = (if negative then [('-' : CodePoint)] else []) ++ s.text := by
  obtain ⟨s, hs, htext, hmagnitude⟩ := size.shortest.exists_spelling
  refine ⟨s, hs, hmagnitude.trans size.magnitude_shortest, ?_⟩
  rw [float, Binary64.text, if_neg h, htext]
  cases negative <;> rfl

/-- **A floating-point number is read from its spelling.** -/
theorem number?_float (negative : Bool) (size : Magnitude) {rest : Text} (h : Ends rest) :
    number? (float (.signed negative size) ++ rest) =
      some (.float (.signed negative size), rest) := by
  by_cases hinfinite : size = .infinity
  · subst hinfinite
    cases negative <;> rfl
  · obtain ⟨s, hs, hsize, htext⟩ := exists_float_eq negative hinfinite
    have hread := unsigned?_spelling negative h hs
    rw [Binary64.ofDecimal, hsize] at hread
    rw [htext]
    have hpositive : number? (s.text ++ rest) = unsigned? false (s.text ++ rest) := by
      rw [Decimal.Spelling.text, List.append_assoc]
      exact number?_whole hs.whole _
    cases negative with
    | true => exact hread
    | false => exact hpositive.trans hread

end Json
end PhoneticBengali
