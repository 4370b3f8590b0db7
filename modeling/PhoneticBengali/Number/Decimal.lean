/-
# Decimal numbers

A decimal number is a natural number times a power of ten.  Its spelling depends
on where the first digit stands:

| first digit | spelling of `15·10^e` |
| --- | --- |
| from `10^16` on | `1.5e+16` |
| below `10^16`, down to `10^-4` | `1500.0`, `1.5`, `0.00015` |
| below `10^-4` | `1.5e-05` |

There is a digit on each side of a point, and no zero at the end beyond that.  An
exponent has two digits or more.
-/

import PhoneticBengali.Number.Numeral

namespace PhoneticBengali

/-- The number `mantissa·10^exponent`. -/
structure Decimal where
  mantissa : Nat
  exponent : Int
deriving DecidableEq, Repr

namespace Decimal

/-- The number that digits spell, times `10^exponent`.  Zeros at the end count
for the exponent. -/
def ofDigits (digits : List Nat) (exponent : Int) : Decimal :=
  let zeros := (digits.reverse.takeWhile (· = 0)).length
  ⟨Numeral.value 10 (digits.take (digits.length - zeros)), exponent + zeros⟩

/-- The number `m·10^e`, with up to `fuel` zeros at the end of `m` moved to the
exponent. -/
def strip : (fuel m : Nat) → (e : Int) → Decimal
  | 0, m, e => ⟨m, e⟩
  | fuel + 1, m, e => if m ≠ 0 ∧ m % 10 = 0 then strip fuel (m / 10) (e + 1) else ⟨m, e⟩

/-- The same number, its mantissa without zeros at the end. -/
def normal (d : Decimal) : Decimal :=
  strip d.mantissa d.mantissa d.exponent

/-- An exponent with its mark and sign. -/
def exponentText (e : Int) : Text :=
  let size := Numeral.ofNat e.natAbs
  'e' :: (if e < 0 then '-' else '+') :: if size.length < 2 then '0' :: size else size

/-- The digits `ds` with `point` of them before the point; with zeros around them
if there are not so many. -/
def pointText (ds : Text) (point : Int) : Text :=
  if point ≤ 0 then "0." ++ (List.replicate (-point).toNat '0' : Text) ++ ds
  else if point < ds.length then ds.take point.toNat ++ "." ++ ds.drop point.toNat
  else ds ++ (List.replicate (point - ds.length).toNat '0' : Text) ++ ".0"

/-- The spelling of a number. -/
def text (d : Decimal) : Text :=
  let d := d.normal
  let ds := Numeral.ofNat d.mantissa
  -- the number of digits before the point
  let point := ds.length + d.exponent
  if d.mantissa = 0 then "0.0"
  else if point > 16 ∨ point < -3 then
    let fraction : Text := if ds.length > 1 then '.' :: ds.drop 1 else []
    ds.take 1 ++ fraction ++ exponentText (point - 1)
  else pointText ds point

end Decimal
end PhoneticBengali
