/-
# Magnitudes

The sizes of binary floating-point numbers of 64 bits, 53 of them for the digits.
Counted up from zero, each has a rank.  All are whole multiples of one unit,
`2^-1074`:

| rank `r` | size in units |
| --- | --- |
| `r < 2^52` | `r` |
| `f·2^52 + m`, with `f > 0` and `m < 2^52` | `(2^52 + m)·2^(f - 1)` |
| `2047·2^52` | infinity, which takes the place of `2^1024` and all beyond |

Up to rank `2^53` the steps are of one unit, and from each multiple of `2^52` on
they are twice as wide as before.  So a number of units is rounded as follows:
its binary digits behind the first 53 are dropped, the quotient is rounded, and
the rank is the number of digits dropped, times `2^52`, plus the quotient.  A
quotient that is rounded up to `2^53` gives the right rank too.
-/

namespace PhoneticBengali

/-- The size of a floating-point number, by its rank. -/
structure Magnitude where
  rank : Nat
  rank_le : rank ≤ 2047 * Nat.pow 2 52
deriving DecidableEq, Repr

namespace Magnitude

/-- The number of units in one. -/
def unitsPerOne : Nat :=
  Nat.pow 2 1074

/-- The size of zero. -/
def zero : Magnitude :=
  ⟨0, Nat.zero_le _⟩

/-- The size of infinity. -/
def infinity : Magnitude :=
  ⟨2047 * Nat.pow 2 52, Nat.le_refl _⟩

/-- The number of units; for infinity, the least that has no rank of its own. -/
def units (x : Magnitude) : Nat :=
  let steps := Nat.pow 2 52
  if x.rank < steps then x.rank
  else (steps + x.rank % steps) * Nat.pow 2 (x.rank / steps - 1)

/-- A quotient rounded to the nearest natural number, of two the even one. -/
def roundedQuotient (num den : Nat) : Nat :=
  let q := num / den
  let r := num % den
  if den < 2 * r ∨ (2 * r = den ∧ q % 2 = 1) then q + 1 else q

/-- The magnitude nearest to `num / den` units, of two the one of even rank. -/
def nearest (num den : Nat) : Magnitude :=
  let dropped := (num / den).log2 - 52
  let quotient := roundedQuotient num (den * Nat.pow 2 dropped)
  ⟨min (dropped * Nat.pow 2 52 + quotient) (2047 * Nat.pow 2 52), Nat.min_le_right _ _⟩

/-- The magnitude nearest to a natural number. -/
def ofNat (n : Nat) : Magnitude :=
  nearest (n * unitsPerOne) 1

/-- The magnitude nearest to a sum. -/
def add (x y : Magnitude) : Magnitude :=
  nearest (x.units + y.units) 1

/-- The magnitude nearest to a product.  Zero times infinity is zero here. -/
def mul (x y : Magnitude) : Magnitude :=
  nearest (x.units * y.units) unitsPerOne

end Magnitude
end PhoneticBengali
