/-
# Floating-point numbers

A floating-point number has a sign and a magnitude, or is undefined.  Zero and
infinity have signs too.
-/

import PhoneticBengali.Number.Shortest

namespace PhoneticBengali

/-- A floating-point number. -/
inductive Binary64 where
  | undefined
  | signed (negative : Bool) (size : Magnitude)
deriving DecidableEq, Repr

namespace Binary64

/-- The infinite number of a sign. -/
def infinite (negative : Bool) : Binary64 :=
  signed negative .infinity

/-- The floating-point number nearest to a decimal number with a sign. -/
def ofDecimal (negative : Bool) (d : Decimal) : Binary64 :=
  signed negative d.magnitude

/-- Whether a number is zero, of either sign. -/
def isZero : Binary64 → Bool
  | undefined => false
  | signed _ size => size = .zero

/-- The spelling of a number, given those of infinity and of what is
undefined. -/
def text (infinity undefinedText : Text) : Binary64 → Text
  | undefined => undefinedText
  | signed negative size =>
    let text := if size = .infinity then infinity else size.shortest.text
    if negative then '-' :: text else text

end Binary64
end PhoneticBengali
