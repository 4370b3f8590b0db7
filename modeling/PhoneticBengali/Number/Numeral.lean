/-
# Numerals

The decimal spelling of natural numbers and integers, and the value of digits.

An integer is converted to decimal digits, and back, only up to a limit of digits;
the sign does not count.
-/

import PhoneticBengali.Text.Basic

namespace PhoneticBengali
namespace Numeral

/-- The digit of value `d < 10`. -/
def digit (d : Nat) : CodePoint :=
  CodePoint.ofNat (0x30 + d)

/-- The decimal digits of `n`, in front of `tail`.  The `fuel` bounds their
number. -/
def digitsOnto : (fuel n : Nat) → (tail : Text) → Text
  | 0, _, tail => tail
  | fuel + 1, n, tail =>
    if n < 10 then digit n :: tail else digitsOnto fuel (n / 10) (digit (n % 10) :: tail)

/-- The decimal digits of a natural number, without leading zeros. -/
def ofNat (n : Nat) : Text :=
  digitsOnto (n + 1) n []

/-- The decimal spelling of an integer. -/
def ofInt : Int → Text
  | .ofNat n => ofNat n
  | .negSucc n => '-' :: ofNat (n + 1)

/-- The value of a digit. -/
def digitValue? (c : CodePoint) : Option Nat :=
  if '0' ≤ c ∧ c ≤ '9' then some (c.toNat - 0x30) else none

/-- The value of digits read in a base, from the left. -/
def value (base : Nat) (digits : List Nat) : Nat :=
  digits.foldl (fun n d => base * n + d) 0

/-- The greatest number of decimal digits that are converted.  It is kept closed, as a
power of it is not to be worked out in passing. -/
@[irreducible]
def digitLimit : Nat :=
  4300

/-- Whether an integer has more decimal digits than are converted. -/
def isLong (n : Int) : Bool :=
  Nat.pow 10 digitLimit ≤ n.natAbs

/-- An integer is not too long if it is below the power of the limit. -/
theorem isLong_eq_false_iff {n : Int} : isLong n = false ↔ n.natAbs < Nat.pow 10 digitLimit := by
  rw [isLong, decide_eq_false_iff_not, Nat.not_le]

/-- The least integer that has more digits than are converted. -/
def leastLong : Int :=
  .ofNat (Nat.pow 10 digitLimit)

/-- The least of the long integers is long. -/
theorem isLong_leastLong : isLong leastLong = true :=
  decide_eq_true (Nat.le_refl _)

end Numeral

/-- Why an integer is not written. -/
inductive NumeralFault where
  /-- It has more digits than are converted. -/
  | tooLong
deriving DecidableEq, Repr

/-- What is said about such an integer. -/
def NumeralFault.message : NumeralFault → String
  | tooLong =>
    "Exceeds the limit (4300 digits) for integer string conversion; " ++
      "use sys.set_int_max_str_digits() to increase the limit"

end PhoneticBengali
