/-
# Hexadecimal digits

Digits are written in lower case and read in either case.
-/

import PhoneticBengali.Text.Basic

namespace PhoneticBengali
namespace Text

/-- The digit of value `d < 16`. -/
def hexDigit (d : Nat) : CodePoint :=
  if d < 10 then CodePoint.ofNat (0x30 + d) else CodePoint.ofNat (0x57 + d)

/-- The last `width` digits of `n`. -/
def hexDigits : (width n : Nat) → Text
  | 0, _ => []
  | width + 1, n => hexDigits width (n / 16) ++ [hexDigit (n % 16)]

/-- The value of a digit. -/
def hexValue? (c : CodePoint) : Option Nat :=
  if '0' ≤ c ∧ c ≤ '9' then some (c.toNat - 0x30)
  else if 'a' ≤ c ∧ c ≤ 'f' then some (c.toNat - 0x57)
  else if 'A' ≤ c ∧ c ≤ 'F' then some (c.toNat - 0x37)
  else none

end Text
end PhoneticBengali
