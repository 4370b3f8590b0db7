/-
# Decimal numbers for magnitudes

A decimal number is read as the magnitude nearest to it.  A magnitude is written
as the decimal number with the fewest digits that is read as that magnitude; of
several, as the nearest one, and of two that are equally near, as the even one.

On the grid of the multiples of a power of ten, if any number is read as a
magnitude, so is one of the two next to that magnitude.  So it is enough to try
these two, on one grid after the other, from the widest on.
-/

import PhoneticBengali.Number.Decimal
import PhoneticBengali.Number.Magnitude

namespace PhoneticBengali

/-- The magnitude nearest to a decimal number.  Numbers that are out of range by
far are told from their exponent: one with a mantissa of `n` binary digits is
less than `10^(n + exponent)`. -/
def Decimal.magnitude (d : Decimal) : Magnitude :=
  let d := d.normal
  if d.mantissa = 0 then .zero
  else if d.exponent > 400 then .infinity
  else if d.exponent + d.mantissa.log2 < -400 then .zero
  else if d.exponent ≥ 0 then
    .nearest (d.mantissa * Nat.pow 10 d.exponent.toNat * Magnitude.unitsPerOne) 1
  else .nearest (d.mantissa * Magnitude.unitsPerOne) (Nat.pow 10 d.exponent.natAbs)

namespace Magnitude

/-- The number of units as a decimal number. -/
def exact (x : Magnitude) : Decimal :=
  ⟨x.units * Nat.pow 5 1074, -1074⟩

/-- The two multiples of `10^e` next to a magnitude, the nearer one first; the
even one, if they are equally near. -/
def neighbours (x : Magnitude) (e : Int) : List Decimal :=
  let num := x.units * Nat.pow 10 (-e).toNat
  let den := unitsPerOne * Nat.pow 10 e.toNat
  let below := num / den
  if roundedQuotient num den = below then [⟨below, e⟩, ⟨below + 1, e⟩]
  else [⟨below + 1, e⟩, ⟨below, e⟩]

/-- An exponent of ten whose power is greater than a finite magnitude: `10^309` is
greater than all, and ten binary digits less are three decimal ones less at
least. -/
def bound (x : Magnitude) : Int :=
  309 - ((2097 - x.units.log2) * 3 / 10 : Nat)

/-- The exponents of the grids that are tried.  On up to five of them the magnitude
has no digit; on the others it has up to seventeen, which are enough. -/
def gridExponents (x : Magnitude) : List Int :=
  (List.range 22).map fun (i : Nat) => x.bound - (i : Int)

/-- The decimal number with the fewest digits that is read as this magnitude. -/
def shortest (x : Magnitude) : Decimal :=
  let found := x.gridExponents.findSome? fun e =>
    (x.neighbours e).find? fun d => d.magnitude = x
  found.getD x.exact

end Magnitude
end PhoneticBengali
