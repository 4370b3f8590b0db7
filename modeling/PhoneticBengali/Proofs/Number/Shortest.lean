/-
# Magnitudes from their decimal numbers

The decimal number that a magnitude is written as is read as that magnitude
(`Magnitude.magnitude_shortest`): what is found among the neighbours was tried, and the
number of units, which is taken if nothing is found, is exact.
-/

import Mathlib.Tactic.Ring
import PhoneticBengali.Proofs.Number.Decimal

namespace PhoneticBengali
namespace Magnitude

/-! ### Rounding -/

/-- A magnitude is known by its rank. -/
theorem eq_of_rank {x y : Magnitude} (h : x.rank = y.rank) : x = y := by
  cases x
  cases y
  cases h
  rfl

/-- Nothing is rounded in a whole quotient. -/
theorem roundedQuotient_mul (n : Nat) {den : Nat} (h : 0 < den) :
    roundedQuotient (n * den) den = n := by
  have hzero : ¬ (den < 2 * 0 ∨ (2 * 0 = den ∧ n % 2 = 1)) := by omega
  rw [roundedQuotient, Nat.mul_mod_left, Nat.mul_div_cancel n h]
  exact if_neg hzero

/-- A number with 53 binary digits before `n` zeros. -/
theorem log2_mul_two_pow {q : Nat} (hq : 2 ^ 52 ≤ q) (hlt : q < 2 ^ 53) (n : Nat) :
    (q * 2 ^ n).log2 = 52 + n := by
  have hpos : 0 < 2 ^ n := Nat.two_pow_pos n
  have hne : q * 2 ^ n ≠ 0 := Nat.mul_ne_zero (by omega) (Nat.ne_of_gt hpos)
  rw [Nat.log2_eq_iff hne, Nat.add_right_comm, Nat.pow_add, Nat.pow_add]
  exact ⟨Nat.mul_le_mul_right _ hq, Nat.mul_lt_mul_of_pos_right hlt hpos⟩

/-- The units of a magnitude are a quotient of 53 binary digits and the zeros behind it,
from which its rank is made up. -/
theorem exists_units (x : Magnitude) :
    ∃ zeros q, zeros ≤ 2046 ∧ q < 2 ^ 53 ∧ x.units = q * 2 ^ zeros ∧
      x.units.log2 - 52 = zeros ∧ x.rank = zeros * 2 ^ 52 + q := by
  have hle : x.rank ≤ 2047 * 2 ^ 52 := x.rank_le
  by_cases hsmall : x.rank < 2 ^ 52
  · have hunits : x.units = x.rank := if_pos hsmall
    have hlog : x.rank.log2 < 52 ∨ x.rank = 0 := by
      rw [or_iff_not_imp_right]
      exact fun hne => (Nat.log2_lt hne).2 hsmall
    refine ⟨0, x.rank, by omega, by omega, by omega, ?_, by omega⟩
    obtain hlog | hzero := hlog
    · rw [hunits]
      omega
    · rw [hunits, hzero]
      rfl
  · have hunits : x.units = (2 ^ 52 + x.rank % 2 ^ 52) * 2 ^ (x.rank / 2 ^ 52 - 1) :=
      if_neg hsmall
    have hmod : x.rank % 2 ^ 52 < 2 ^ 52 := Nat.mod_lt _ (by decide)
    refine ⟨x.rank / 2 ^ 52 - 1, 2 ^ 52 + x.rank % 2 ^ 52, by omega, by omega, hunits, ?_, by omega⟩
    rw [hunits, log2_mul_two_pow (by omega) (by omega)]
    omega

/-- **A magnitude is the nearest one to its own units.** -/
theorem nearest_units (x : Magnitude) {den : Nat} (h : 0 < den) :
    nearest (x.units * den) den = x := by
  obtain ⟨zeros, q, -, -, hunits, hlog, hrank⟩ := x.exists_units
  have hquotient : roundedQuotient (x.units * den) (den * 2 ^ zeros) = q := by
    rw [hunits, Nat.mul_assoc, Nat.mul_comm (2 ^ zeros)]
    exact roundedQuotient_mul q (Nat.mul_pos h (Nat.two_pow_pos zeros))
  have hle : x.rank ≤ 2047 * 2 ^ 52 := x.rank_le
  have hmin : min x.rank (2047 * 2 ^ 52) = x.rank := Nat.min_eq_left hle
  refine eq_of_rank ?_
  simp only [nearest, Nat.mul_div_cancel x.units h, hlog, Nat.pow_eq, hquotient, ← hrank, hmin]

/-! ### The exact number of units -/

/-- A magnitude has less than 2100 binary digits in units. -/
theorem log2_units_le (x : Magnitude) : x.units.log2 ≤ 2098 := by
  obtain ⟨zeros, q, hzeros, -, -, hlog, -⟩ := x.exists_units
  omega

/-- Only zero has no unit. -/
theorem eq_zero_of_units {x : Magnitude} (h : x.units = 0) : x = .zero := by
  obtain ⟨zeros, q, -, -, hunits, hlog, hrank⟩ := x.exists_units
  obtain rfl : zeros = 0 := by
    rw [← hlog, h]
    rfl
  exact eq_of_rank (show x.rank = 0 by omega)

/-- Three binary digits for each decimal one. -/
theorem two_pow_le_ten_pow (n : Nat) : 2 ^ (3 * n) ≤ 10 ^ n := by
  rw [Nat.pow_mul]
  exact Nat.pow_le_pow_left (by decide) n

/-- A whole number has no more digits than there are in the units of a magnitude. -/
theorem le_log2_of_whole {u m n j : Nat} (h : u = m * 10 ^ j * 2 ^ n) (hm : m ≠ 0) :
    3 * j + n ≤ u.log2 := by
  have hpow : 2 ^ (3 * j + n) ≤ u := by
    rw [h, Nat.pow_add]
    exact Nat.mul_le_mul_right _
      ((two_pow_le_ten_pow j).trans (Nat.le_mul_of_pos_left _ (Nat.pos_of_ne_zero hm)))
  exact (Nat.le_log2 (Nat.ne_of_gt ((Nat.two_pow_pos _).trans_le hpow))).2 hpow

/-- The digits of a fraction begin no lower than at the unit. -/
theorem le_log2_of_fraction {u m n i : Nat} (h : m * 2 ^ n = u * 10 ^ i) (hu : u ≠ 0) :
    3 * i ≤ m.log2 + n := by
  have hpow : 2 ^ (3 * i) < 2 ^ (m.log2 + 1 + n) :=
    calc 2 ^ (3 * i) ≤ u * 10 ^ i :=
          (two_pow_le_ten_pow i).trans (Nat.le_mul_of_pos_left _ (Nat.pos_of_ne_zero hu))
      _ = m * 2 ^ n := h.symm
      _ < 2 ^ (m.log2 + 1) * 2 ^ n :=
          Nat.mul_lt_mul_of_pos_right Nat.lt_log2_self (Nat.two_pow_pos n)
      _ = 2 ^ (m.log2 + 1 + n) := (Nat.pow_add ..).symm
  have hexponent := (Nat.pow_lt_pow_iff_right (by decide)).1 hpow
  omega

/-- The units of a whole number. -/
theorem units_of_whole {u m n j : Nat} (h : m * 10 ^ (n + j) = u * 5 ^ n) :
    u = m * 10 ^ j * 2 ^ n := by
  have hten : (10 : Nat) ^ n = 2 ^ n * 5 ^ n := Nat.mul_pow 2 5 n
  refine Nat.eq_of_mul_eq_mul_right (Nat.pow_pos (show 0 < 5 by decide)) (h.symm.trans ?_)
  rw [Nat.pow_add, hten]
  ring

/-- The units of a fraction. -/
theorem units_of_fraction {u m k i : Nat} (h : m * 10 ^ k = u * 5 ^ (k + i)) :
    m * 2 ^ (k + i) = u * 10 ^ i := by
  have hten : (10 : Nat) ^ (k + i) = 2 ^ (k + i) * 5 ^ (k + i) := Nat.mul_pow 2 5 (k + i)
  refine Nat.eq_of_mul_eq_mul_right (Nat.pow_pos (show 0 < 10 by decide) : 0 < 10 ^ k) ?_
  calc m * 2 ^ (k + i) * 10 ^ k = m * 10 ^ k * 2 ^ (k + i) := by ring
    _ = u * (2 ^ (k + i) * 5 ^ (k + i)) := by rw [h]; ring
    _ = u * 10 ^ i * 10 ^ k := by rw [← hten, Nat.pow_add]; ring

/-- The exponent of the unit, by a name: its powers are too large to be computed. -/
theorem unitsPerOne_eq {n : Nat} (h : 1074 = n) : unitsPerOne = 2 ^ n := by
  unfold unitsPerOne
  rw [h, Nat.pow_eq]

/-- The exact decimal of a magnitude, as the power of two in a unit is opened. -/
theorem exact_eq {n : Nat} (h : 1074 = n) (x : Magnitude) : x.exact = ⟨x.units * 5 ^ n, -n⟩ := by
  have hexponent : (-1074 : Int) = -n := by omega
  rw [exact, hexponent, h, Nat.pow_eq]

/-- **The number of units is read as the magnitude.** -/
theorem magnitude_exact (x : Magnitude) : x.exact.magnitude = x := by
  obtain ⟨n, hn⟩ : ∃ n, 1074 = n := ⟨_, rfl⟩
  obtain ⟨k, hk, hshift⟩ := Decimal.strip_eq (x.units * 5 ^ n) (x.units * 5 ^ n) (-n)
  rw [exact_eq hn, Decimal.magnitude, Decimal.normal]
  generalize Decimal.strip (x.units * 5 ^ n) (x.units * 5 ^ n) (-n) = d at *
  obtain ⟨m, e⟩ := d
  dsimp only at hk hshift ⊢
  subst hshift
  have hfive : 5 ^ n ≠ 0 := Nat.ne_of_gt (Nat.pow_pos (by decide))
  have hten : 10 ^ k ≠ 0 := Nat.ne_of_gt (Nat.pow_pos (by decide))
  split
  · rename_i hm
    rw [hm, Nat.zero_mul, eq_comm, Nat.mul_eq_zero] at hk
    exact (eq_zero_of_units (hk.resolve_right hfive)).symm
  rename_i hm
  have hunits : x.units ≠ 0 := by
    intro hzero
    rw [hzero, Nat.zero_mul, Nat.mul_eq_zero] at hk
    exact hk.elim hm hten
  -- the exponent tells a whole number from a fraction; neither is out of range
  obtain ⟨j, rfl⟩ | ⟨i, rfl⟩ : (∃ j, k = n + j) ∨ ∃ i, n = k + (i + 1) := by
    obtain hle | hlt := (Nat.lt_or_ge k n).symm
    · exact .inl (Nat.exists_eq_add_of_le hle)
    · exact .inr (Nat.exists_eq_add_of_lt hlt)
  · have hwhole := units_of_whole hk
    have hlog := le_log2_of_whole hwhole hm
    have hlog' := x.log2_units_le
    rw [if_neg (by omega), if_neg (by omega), if_pos (by omega)]
    have hexponent : (-n + (n + j : Nat) : Int).toNat = j := by omega
    rw [hexponent, unitsPerOne_eq hn, Nat.pow_eq, ← hwhole]
    simpa using x.nearest_units Nat.one_pos
  · have hfraction := units_of_fraction hk
    have hlog := le_log2_of_fraction hfraction hunits
    rw [if_neg (by omega), if_neg (by omega), if_neg (by omega)]
    have hexponent : (-(k + (i + 1) : Nat) + k : Int).natAbs = i + 1 := by omega
    rw [hexponent, unitsPerOne_eq hn, Nat.pow_eq, hfraction]
    exact x.nearest_units (Nat.pow_pos (by decide))

/-- **A magnitude is read from the decimal number that it is written as.** -/
theorem magnitude_shortest (x : Magnitude) : x.shortest.magnitude = x := by
  rw [shortest]
  cases hfound : x.gridExponents.findSome? fun e =>
      (x.neighbours e).find? fun d => d.magnitude = x with
  | none => exact x.magnitude_exact
  | some d =>
    obtain ⟨e, -, he⟩ := List.exists_of_findSome?_eq_some hfound
    simpa using List.find?_some he

end Magnitude
end PhoneticBengali
