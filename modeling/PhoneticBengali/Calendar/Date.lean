/-
# Dates

A date is a day of the years 1 to 9999.  Every fourth year is a leap year, but of
the years that end a century only every fourth one.
-/

namespace PhoneticBengali

/-- A day by its year, month and day of the month. -/
structure Date where
  year : Nat
  month : Nat
  day : Nat
deriving DecidableEq, Repr

/-- Why numbers name no date or no time. -/
inductive CalendarFault where
  | year (n : Nat)
  | month
  | day
  | hour
  | minute
  | second
  /-- A distance from universal time, in seconds, of a day or more. -/
  | offset (seconds : Int)
deriving DecidableEq, Repr

namespace Date

/-- Whether a year has 366 days. -/
def isLeapYear (y : Nat) : Bool :=
  y % 4 = 0 && (y % 100 != 0 || y % 400 = 0)

/-- The number of days of a month. -/
def monthLength (y m : Nat) : Nat :=
  if m = 2 then if isLeapYear y then 29 else 28
  else if [4, 6, 9, 11].contains m then 30
  else 31

/-- What is wrong with a date; of two faults, that of the greater part. -/
def fault? (d : Date) : Option CalendarFault :=
  if d.year < 1 ∨ 9999 < d.year then some (.year d.year)
  else if d.month < 1 ∨ 12 < d.month then some .month
  else if d.day < 1 ∨ monthLength d.year d.month < d.day then some .day
  else none

/-- The number of days before a date, from the first day of the year 1 on. -/
def daysBefore (d : Date) : Nat :=
  let y := d.year - 1
  let months := (List.range (d.month - 1)).map fun i => monthLength d.year (i + 1)
  365 * y + y / 4 - y / 100 + y / 400 + months.foldr (· + ·) 0 + (d.day - 1)

end Date
end PhoneticBengali
