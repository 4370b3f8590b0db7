/-
# Timestamps in YAML texts

| form | value |
| --- | --- |
| `2001-12-14` | a date |
| `2001-12-14 21:59:43.1` | a moment; `t`, `T` or blanks stand before the time |
| `2001-12-14T21:59:43Z`, `… +5:30` | a moment with an offset |

A month, a day and an hour may have one digit, if there is a time.  The first six
digits of a fraction count.
-/

import PhoneticBengali.Calendar.Timestamp
import PhoneticBengali.Yaml.Fault

namespace PhoneticBengali
namespace Yaml
namespace Moment

/-- The number that the digits in front spell, at least `least` and at most `most`
of them, and what follows. -/
def number? (least most : Nat) (t : Text) : Option (Nat × Text) :=
  let digits := (t.take most).takeWhile CodePoint.isDigit
  if digits.length < least then none
  else some (Numeral.value 10 (digits.filterMap Numeral.digitValue?), t.drop digits.length)

/-- What follows a character in front. -/
def after? (c : CodePoint) : Text → Option Text
  | x :: t => if x = c then some t else none
  | [] => none

/-- A number behind a character. -/
def numberAfter? (c : CodePoint) (least most : Nat) (t : Text) : Option (Nat × Text) := do
  number? least most (← after? c t)

/-- A date, with `least` digits at least for its month and day. -/
def date? (least : Nat) (t : Text) : Option (Date × Text) := do
  let (year, t) ← number? 4 4 t
  let (month, t) ← numberAfter? '-' least 2 t
  let (day, t) ← numberAfter? '-' least 2 t
  return (⟨year, month, day⟩, t)

/-- Whether a character is a space or a tab. -/
def isBlank (c : CodePoint) : Bool :=
  c = ' ' || c = '\t'

/-- What follows the separator between a date and a time. -/
def separator? : Text → Option Text
  | [] => none
  | c :: t =>
    if c = 't' ∨ c = 'T' then some t
    else if isBlank c then some (t.dropWhile isBlank)
    else none

/-- The microseconds that a fraction of a second spells. -/
def microseconds (digits : Text) : Nat :=
  let filled := (digits ++ List.replicate 6 ('0' : CodePoint)).take 6
  Numeral.value 10 (filled.filterMap Numeral.digitValue?)

/-- A time of day. -/
def clock? (t : Text) : Option (Clock × Text) := do
  let (hour, t) ← number? 1 2 t
  let (minute, t) ← numberAfter? ':' 2 2 t
  let (second, t) ← numberAfter? ':' 2 2 t
  match t with
  | '.' :: u =>
    return (⟨hour, minute, second, microseconds (u.takeWhile CodePoint.isDigit)⟩,
      u.dropWhile CodePoint.isDigit)
  | _ => return (⟨hour, minute, second, 0⟩, t)

/-- An offset after its sign, in seconds; nothing may follow it. -/
def hours? (t : Text) : Option Int := do
  let (hours, t) ← number? 1 2 t
  let (minutes, t) ← if t.isEmpty then some (0, t) else numberAfter? ':' 2 2 t
  if t.isEmpty then some ((hours * 60 + minutes) * 60 : Nat) else none

/-- The offset at the end of a moment, if it has one. -/
def offset? (t : Text) : Option (Option Int) :=
  match t, t.dropWhile isBlank with
  | [], _ => some none
  | _, ['Z'] => some (some 0)
  | _, '+' :: u => (hours? u).map some
  | _, '-' :: u => (hours? u).map fun s => some (-s)
  | _, _ => none

/-- A moment. -/
def moment? (t : Text) : Option Timestamp := do
  let (date, t) ← date? 1 t
  let (clock, t) ← clock? (← separator? t)
  return .moment date clock (← offset? t)

/-- A date, with `least` digits at least for its month and day, and nothing behind
it. -/
def day? (least : Nat) (t : Text) : Option Timestamp := do
  let (date, rest) ← date? least t
  if rest.isEmpty then some (.day date) else none

/-- A timestamp, if the text is one.  The month and the day of a date alone have
`least` digits at least. -/
def timestamp? (least : Nat) (t : Text) : Except Fault (Option Timestamp) :=
  match (day? least t).or (moment? t) with
  | none => .ok none
  | some x =>
    match x.fault? with
    | some fault => .error (.calendar fault)
    | none => .ok (some x)

end Moment
end Yaml
end PhoneticBengali
