/-
# Spellings of decimal numbers

The spelling of a decimal number is made of digits, a point and an exponent
(`Decimal.Spelling`).  With `n` digits of the mantissa, `p` of them before the point:

| spelling | whole part | fraction | exponent |
| --- | --- | --- | --- |
| `1.5e+16` | the first digit | the other digits | `p - 1` |
| `0.0015` | `0` | `-p` zeros and all digits | |
| `1.5` | `p` digits | `n - p` digits | |
| `1500.0` | all digits and `p - n` zeros | `0` | |

In each of them the digits of the mantissa stand between zeros, and give the same number
again (`Decimal.exists_spelling`).
-/

import Mathlib.Algebra.Ring.Nat
import PhoneticBengali.Number.Shortest

namespace PhoneticBengali

/-! ### Numerals -/

namespace Numeral

/-- A digit is worth what it was made from. -/
theorem digitValue?_digit : ∀ d < 10, digitValue? (digit d) = some d := by
  decide

/-- Digits of a number, with no zero in front of others. -/
structure IsWhole (ds : List Nat) : Prop where
  digits : ∀ d ∈ ds, d < 10
  ne_nil : ds ≠ []
  head : ds.head? = some 0 → ds = [0]

/-- A whole part has a first digit. -/
theorem IsWhole.exists_cons {ds : List Nat} (h : IsWhole ds) :
    ∃ d < 10, ∃ rest, ds = d :: rest := by
  obtain ⟨d, rest, rfl⟩ := List.exists_cons_of_ne_nil h.ne_nil
  exact ⟨d, h.digits d (List.mem_cons_self ..), rest, rfl⟩

/-- The last digit counts once, the others ten times or as the base is. -/
theorem value_append_singleton (base : Nat) (ds : List Nat) (d : Nat) :
    value base (ds ++ [d]) = base * value base ds + d := by
  rw [value, List.foldl_append]
  rfl

/-- Zeros in front do not count. -/
theorem value_replicate_zero_append (base n : Nat) (ds : List Nat) :
    value base (List.replicate n 0 ++ ds) = value base ds := by
  induction n with
  | zero => rfl
  | succ n ih =>
    have hfirst : base * 0 + 0 = 0 := by simp
    rw [List.replicate_succ, List.cons_append, ← ih, value, List.foldl_cons, hfirst]
    rfl

/-- Each digit behind a number makes it ten times as large or larger. -/
theorem mul_pow_length_le (n : Nat) (ds : List Nat) :
    n * 10 ^ ds.length ≤ ds.foldl (fun n d => 10 * n + d) n := by
  induction ds generalizing n with
  | nil => exact Nat.le_of_eq (Nat.mul_one n)
  | cons d ds ih =>
    have hstep : n * 10 ^ (d :: ds).length ≤ (10 * n + d) * 10 ^ ds.length := by
      rw [List.length_cons, Nat.pow_succ', ← Nat.mul_assoc, Nat.mul_comm n]
      exact Nat.mul_le_mul_right _ (Nat.le_add_right ..)
    exact Nat.le_trans hstep (ih (10 * n + d))

/-- A number is spelled by digits of its value. -/
theorem exists_digits {fuel n : Nat} (h : n < fuel) (tail : Text) :
    ∃ ds, digitsOnto fuel n tail = ds.map digit ++ tail ∧ IsWhole ds ∧ value 10 ds = n := by
  induction fuel generalizing n tail with
  | zero => cases h
  | succ fuel ih =>
    rw [digitsOnto]
    split
    · rename_i hn
      exact ⟨[n], rfl, ⟨by simpa using hn, by simp, by simp⟩, by simp [value]⟩
    · -- the last digit goes in front of the tail, the others come before it
      obtain ⟨ds, hds, hwhole, hvalue⟩ :=
        ih (n := n / 10) (by omega) (digit (n % 10) :: tail)
      refine ⟨ds ++ [n % 10], ?_, ⟨?_, by simp, fun hhead => ?_⟩, ?_⟩
      · rw [hds, List.map_append, List.append_assoc]
        rfl
      · intro d hd
        obtain hd | rfl := by simpa using hd
        · exact hwhole.digits d hd
        · exact Nat.mod_lt n (by decide)
      · rw [List.head?_append, List.head?_eq_some_head hwhole.ne_nil] at hhead
        rw [hwhole.head ((List.head?_eq_some_head hwhole.ne_nil).trans hhead)] at hvalue
        simp only [value, List.foldl] at hvalue
        omega
      · rw [value_append_singleton, hvalue]
        exact Nat.div_add_mod n 10

/-- Digits of a number of the same length or less: the first of several is not zero. -/
theorem IsWhole.length_le {ds : List Nat} (h : IsWhole ds) {k : Nat} (hk : 0 < k)
    (hvalue : value 10 ds < 10 ^ k) : ds.length ≤ k := by
  obtain ⟨d, -, rest, rfl⟩ := h.exists_cons
  cases rest with
  | nil => exact hk
  | cons e rest =>
    have hd : 0 < d := by
      refine Nat.pos_of_ne_zero ?_
      rintro rfl
      cases h.head rfl
    have hle : 10 ^ (e :: rest).length ≤ value 10 (d :: e :: rest) :=
      Nat.le_trans (Nat.le_mul_of_pos_left _ hd) (by
        simpa [value] using mul_pow_length_le d (e :: rest))
    exact (Nat.pow_lt_pow_iff_right (by decide : 1 < 10)).1 (Nat.lt_of_le_of_lt hle hvalue)

/-- The spelling of a natural number. -/
theorem ofNat_eq (n : Nat) : ∃ ds, ofNat n = ds.map digit ∧ IsWhole ds ∧ value 10 ds = n := by
  obtain ⟨ds, hds, h⟩ := exists_digits (Nat.lt_succ_self n) []
  exact ⟨ds, hds.trans (List.append_nil _), h⟩

end Numeral

namespace Decimal

/-- An exponent is spelled by its sign and digits of its size. -/
theorem exponentText_eq (e : Int) :
    ∃ ds, exponentText e =
        ('e' : CodePoint) :: (if e < 0 then '-' else '+') :: ds.map Numeral.digit ∧
      (∀ d ∈ ds, d < 10) ∧ ds ≠ [] ∧ Numeral.value 10 ds = e.natAbs := by
  obtain ⟨ds, hds, hwhole, hvalue⟩ := Numeral.ofNat_eq e.natAbs
  rw [exponentText, hds]
  by_cases hlength : (ds.map Numeral.digit).length < 2
  · rw [if_pos hlength]
    refine ⟨0 :: ds, rfl, ?_, List.cons_ne_nil _ _, ?_⟩
    · rintro x (_ | ⟨_, hx⟩)
      · decide
      · exact hwhole.digits x hx
    · exact (Numeral.value_replicate_zero_append 10 1 ds).trans hvalue
  · rw [if_neg hlength]
    exact ⟨ds, rfl, hwhole.digits, hwhole.ne_nil, hvalue⟩

/-! ### Zeros at the end -/

/-- Zeros that leave the mantissa count for the exponent. -/
theorem strip_eq (fuel m : Nat) (e : Int) :
    ∃ k : Nat, (strip fuel m e).mantissa * 10 ^ k = m ∧ (strip fuel m e).exponent = e + k := by
  induction fuel generalizing m e with
  | zero => exact ⟨0, by simp [strip], by simp [strip]⟩
  | succ fuel ih =>
    rw [strip]
    split
    · rename_i hm
      obtain ⟨k, hmantissa, hexponent⟩ := ih (m / 10) (e + 1)
      refine ⟨k + 1, ?_, by omega⟩
      rw [Nat.pow_succ, ← Nat.mul_assoc, hmantissa]
      omega
    · exact ⟨0, by simp, by simp⟩

/-- No zeros are left at the end of the mantissa, but for the number zero. -/
theorem strip_stops {fuel m : Nat} (h : m ≤ fuel) (e : Int) :
    (strip fuel m e).mantissa = 0 ∨ (strip fuel m e).mantissa % 10 ≠ 0 := by
  induction fuel generalizing m e with
  | zero =>
    obtain rfl := Nat.le_zero.1 h
    exact .inl rfl
  | succ fuel ih =>
    rw [strip]
    split
    · exact ih (by omega) (e + 1)
    · rename_i hm
      exact (Nat.eq_zero_or_pos m).imp_right fun hpos hmod => hm ⟨Nat.ne_of_gt hpos, hmod⟩

/-- Nothing is stripped from a mantissa without a zero at its end. -/
theorem strip_of_stops (fuel : Nat) {m : Nat} (h : m = 0 ∨ m % 10 ≠ 0) (e : Int) :
    strip fuel m e = ⟨m, e⟩ := by
  cases fuel with
  | zero => rfl
  | succ fuel =>
    rw [strip, if_neg]
    rintro ⟨hne, hmod⟩
    exact h.elim hne fun hm => hm hmod

/-- A normal form has no zero at its end. -/
theorem normal_stops (d : Decimal) : d.normal.mantissa = 0 ∨ d.normal.mantissa % 10 ≠ 0 :=
  strip_stops (Nat.le_refl _) d.exponent

/-- A normal form is its own normal form. -/
theorem normal_normal (d : Decimal) : d.normal.normal = d.normal :=
  strip_of_stops _ d.normal_stops _

/-- A normal form is worth what the decimal is. -/
theorem magnitude_normal (d : Decimal) : d.normal.magnitude = d.magnitude := by
  rw [magnitude, magnitude, normal_normal]

/-- A decimal number without mantissa is zero. -/
theorem magnitude_of_mantissa {d : Decimal} (h : d.normal.mantissa = 0) :
    d.magnitude = .zero := by
  rw [magnitude]
  exact if_pos h

/-- Digits between zeros give their value, and the zeros behind them an exponent. -/
theorem ofDigits_between {ds : List Nat} (h : Numeral.value 10 ds % 10 ≠ 0) (before after : Nat)
    (e : Int) :
    ofDigits (List.replicate before 0 ++ ds ++ List.replicate after 0) e =
      ⟨Numeral.value 10 ds, e + after⟩ := by
  obtain rfl | ⟨init, last, rfl⟩ := List.eq_nil_or_concat ds
  · exact absurd rfl h
  rw [List.concat_eq_append] at h ⊢
  have hlast : last ≠ 0 := by
    rintro rfl
    rw [Numeral.value_append_singleton, Nat.add_zero, Nat.mul_mod_right] at h
    exact h rfl
  have hzeros : ((List.replicate before 0 ++ (init ++ [last]) ++
      List.replicate after 0).reverse.takeWhile (· = 0)).length = after := by
    rw [List.reverse_append, List.reverse_replicate, ← List.append_assoc, List.reverse_append,
      List.reverse_singleton, List.singleton_append, List.takeWhile_append_of_pos (by simp),
      List.takeWhile_cons_of_neg (by simpa using hlast), List.append_nil, List.length_replicate]
  rw [ofDigits, hzeros, List.length_append, List.length_replicate, Nat.add_sub_cancel,
    List.take_left, Numeral.value_replicate_zero_append]

/-! ### Spellings -/

/-- Digits before and behind a point, and an exponent. -/
structure Spelling where
  whole : List Nat
  part : List Nat
  exponent : Option Int := none

namespace Spelling

/-- The text of a spelling: without a fraction there is no point. -/
def text (s : Spelling) : Text :=
  s.whole.map Numeral.digit ++
    ((if s.part.isEmpty then [] else ('.' : CodePoint) :: s.part.map Numeral.digit) ++
      (s.exponent.map exponentText).getD [])

/-- The number that is spelled. -/
def decimal (s : Spelling) : Decimal :=
  .ofDigits (s.whole ++ s.part) (s.exponent.getD 0 - s.part.length)

/-- A spelling of a floating-point number: a fraction or an exponent tells it from an
integer. -/
structure IsFloat (s : Spelling) : Prop where
  whole : Numeral.IsWhole s.whole
  part : ∀ d ∈ s.part, d < 10
  isFloat : s.part ≠ [] ∨ s.exponent.isSome

/-- The digits `ds` stand between zeros, `point` of them before the place of the point
that the exponent leads to. -/
def Shows (s : Spelling) (ds : List Nat) (point : Int) : Prop :=
  ∃ before after, s.whole ++ s.part = List.replicate before 0 ++ ds ++ List.replicate after 0 ∧
    s.exponent.getD 0 - s.part.length + after = point - ds.length

/-- A spelling that shows digits without a zero at their end stands for the decimal with
these digits as its mantissa. -/
theorem Shows.decimal_eq {s : Spelling} {ds : List Nat} {point : Int} (h : s.Shows ds point)
    (hds : Numeral.value 10 ds % 10 ≠ 0) :
    s.decimal = ⟨Numeral.value 10 ds, point - ds.length⟩ := by
  obtain ⟨before, after, hdigits, hexponent⟩ := h
  rw [decimal, hdigits, ofDigits_between hds, hexponent]

end Spelling

section Forms

variable {d : Nat} {ds : List Nat} (hdigits : ∀ e ∈ d :: ds, e < 10) (hd : d ≠ 0)
include hdigits hd

/-- What begins with the digits of a number and goes on with digits. -/
theorem isWhole_cons {es : List Nat} (hes : ∀ e ∈ es, e < 10) : Numeral.IsWhole (d :: es) where
  digits := List.forall_mem_cons.2 ⟨hdigits d (List.mem_cons_self ..), hes⟩
  ne_nil := List.cons_ne_nil d es
  head h := absurd (Option.some.inj h) hd

/-- Digits with a point between them or beside them. -/
theorem exists_pointText (point : Int) :
    ∃ s : Spelling, s.IsFloat ∧ pointText ((d :: ds).map Numeral.digit) point = s.text ∧
      s.Shows (d :: ds) point := by
  have hrest : ∀ e ∈ ds, e < 10 := fun e he => hdigits e (List.mem_cons_of_mem d he)
  have hzeros : ∀ n, ∀ e ∈ List.replicate n 0, e < 10 := by
    intro n e he
    rw [List.eq_of_mem_replicate he]
    decide
  have hzero : Numeral.digit 0 = '0' := rfl
  have hfront : Text.ofString "0." = (['0', '.'] : Text) := rfl
  have hmiddle : Text.ofString "." = (['.'] : Text) := rfl
  have hbehind : Text.ofString ".0" = (['.', '0'] : Text) := rfl
  rw [pointText]
  split
  · -- zeros before the digits
    refine ⟨⟨[0], List.replicate (-point).toNat 0 ++ d :: ds, none⟩,
      ⟨⟨by simp, by simp, by simp⟩, ?_, by simp⟩, ?_, (-point).toNat + 1, 0, ?_, ?_⟩
    · exact List.forall_mem_append.2 ⟨hzeros _, hdigits⟩
    · simp [Spelling.text, hzero, hfront]
    · simp [List.replicate_succ]
    · simp
      omega
  split
  · -- digits on both sides
    rename_i hpos hlt
    rw [List.length_map, List.length_cons] at hlt
    obtain ⟨p, rfl⟩ : ∃ p : Nat, point = (p + 1 : Nat) := ⟨point.toNat - 1, by omega⟩
    have hpart : ds.drop p ≠ [] := by
      rw [ne_eq, List.drop_eq_nil_iff]
      omega
    refine ⟨⟨d :: ds.take p, ds.drop p, none⟩,
      ⟨isWhole_cons hdigits hd fun e he => hrest e (List.mem_of_mem_take he),
        fun e he => hrest e (List.mem_of_mem_drop he), .inl hpart⟩, ?_, 0, 0, by simp, ?_⟩
    · rw [Spelling.text, List.isEmpty_eq_false_iff.2 hpart, hmiddle]
      simp
    · simp
      omega
  · -- zeros behind the digits
    rename_i hpos hge
    rw [List.length_map] at hge ⊢
    obtain ⟨zeros, hlength⟩ : ∃ n : Nat, point - (d :: ds).length = n :=
      ⟨(point - (d :: ds).length).toNat, by omega⟩
    rw [hlength, Int.toNat_natCast]
    refine ⟨⟨d :: (ds ++ List.replicate zeros 0), [0], none⟩,
      ⟨isWhole_cons hdigits hd (List.forall_mem_append.2 ⟨hrest, hzeros zeros⟩), by simp,
        by simp⟩, ?_, 0, zeros + 1, ?_, ?_⟩
    · simp [Spelling.text, hzero, hbehind]
    · simp [List.replicate_succ']
    · rw [hlength, Option.getD_none, List.length_singleton]
      omega

/-- A digit before the point, and an exponent. -/
theorem exists_exponentText (point : Int) :
    ∃ s : Spelling, s.IsFloat ∧
      ((d :: ds).map Numeral.digit).take 1 ++
        (if (d :: ds).length > 1 then ('.' : CodePoint) :: ((d :: ds).map Numeral.digit).drop 1
          else []) ++
          exponentText (point - 1) = s.text ∧
      s.Shows (d :: ds) point := by
  refine ⟨⟨[d], ds, some (point - 1)⟩, ⟨isWhole_cons hdigits hd nofun,
    fun e he => hdigits e (List.mem_cons_of_mem d he), .inr rfl⟩, ?_, 0, 0, ?_, ?_⟩
  · cases ds <;> simp [Spelling.text]
  · simp
  · simp
    omega

end Forms

/-- **The spelling of a decimal number** is one of a floating-point number, and spells a
number of the same magnitude. -/
theorem exists_spelling (d : Decimal) :
    ∃ s : Spelling, s.IsFloat ∧ d.text = s.text ∧ s.decimal.magnitude = d.magnitude := by
  obtain hm | hm := d.normal_stops
  · refine ⟨⟨[0], [0], none⟩, ⟨⟨by simp, by simp, by simp⟩, by simp, by simp⟩, ?_, ?_⟩
    · rw [text]
      exact if_pos hm
    · rw [magnitude_of_mantissa hm]
      exact magnitude_of_mantissa rfl
  · obtain ⟨ds, hds, hwhole, hvalue⟩ := Numeral.ofNat_eq d.normal.mantissa
    obtain ⟨first, -, rest, rfl⟩ := hwhole.exists_cons
    have hfirst : first ≠ 0 := by
      rintro rfl
      rw [hwhole.head rfl] at hvalue
      exact hm (by rw [← hvalue]; rfl)
    obtain ⟨s, hs, htext, hshows⟩ : ∃ s : Spelling, s.IsFloat ∧ d.text = s.text ∧
        s.Shows (first :: rest) ((first :: rest).length + d.normal.exponent) := by
      have hmantissa : d.normal.mantissa ≠ 0 := fun h => hm (by rw [h])
      simp only [text, hds, if_neg hmantissa, List.length_map]
      split
      · exact exists_exponentText hwhole.digits hfirst _
      · exact exists_pointText hwhole.digits hfirst _
    refine ⟨s, hs, htext, ?_⟩
    rw [hshows.decimal_eq (hvalue.symm ▸ hm), hvalue, Int.add_comm, Int.add_sub_cancel]
    exact d.magnitude_normal

end Decimal
end PhoneticBengali
