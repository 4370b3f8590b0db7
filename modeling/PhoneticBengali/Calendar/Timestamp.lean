/-
# Timestamps

A timestamp is a date, or a moment: a date with a time of day.  A moment may say
how far its clock is from universal time.

| timestamp | spelling in a message |
| --- | --- |
| date | `datetime.date(2001, 12, 14)` |
| moment | `datetime.datetime(2001, 12, 14, 21, 59, 43, 100000)` |
| moment with an offset | `datetime.datetime(…, tzinfo=datetime.timezone.utc)` |

Microseconds that are zero are left out, and then seconds that are zero too.
-/

import PhoneticBengali.Calendar.Date
import PhoneticBengali.Number.Numeral

namespace PhoneticBengali

/-- A time of day. -/
structure Clock where
  hour : Nat
  minute : Nat
  second : Nat
  microsecond : Nat
deriving DecidableEq, Repr

namespace Clock

/-- What is wrong with a time of day; of two faults, that of the greater part. -/
def fault? (c : Clock) : Option CalendarFault :=
  if 23 < c.hour then some .hour
  else if 59 < c.minute then some .minute
  else if 59 < c.second then some .second
  else none

/-- The number of microseconds since midnight. -/
def microseconds (c : Clock) : Nat :=
  ((c.hour * 60 + c.minute) * 60 + c.second) * 1000000 + c.microsecond

end Clock

/-- A date, or a moment with its offset from universal time in seconds. -/
inductive Timestamp where
  | day (date : Date)
  | moment (date : Date) (clock : Clock) (offset : Option Int)
deriving DecidableEq, Repr

namespace Timestamp

/-- The number of seconds of a day. -/
def secondsPerDay : Int :=
  86400

/-- What is wrong with a timestamp. -/
def fault? : Timestamp → Option CalendarFault
  | day date => date.fault?
  | moment date clock offset =>
    let far := offset.filter fun s => s ≤ -secondsPerDay ∨ secondsPerDay ≤ s
    (far.map .offset).or (date.fault?.or clock.fault?)

/-- The microseconds of universal time at a moment with an offset, from the first
day of the year 1 on. -/
def instant (date : Date) (clock : Clock) (offset : Int) : Int :=
  (date.daysBefore * secondsPerDay - offset) * 1000000 + clock.microseconds

/-- Whether two timestamps are the same: dates and moments without an offset by
all their parts, moments with an offset by universal time. -/
def same : Timestamp → Timestamp → Bool
  | moment d c (some s), moment d' c' (some s') => instant d c s = instant d' c' s'
  | x, y => x = y

/-- The name of a kind of timestamp. -/
def kind : Timestamp → String
  | day _ => "date"
  | moment _ _ _ => "datetime"

/-- The spelling of a span of time in a message. -/
def spanText (seconds : Int) : String :=
  let days := seconds / secondsPerDay
  let rest := seconds % secondsPerDay
  let parts := (if days = 0 then [] else [s!"days={days}"]) ++
    (if rest = 0 then [] else [s!"seconds={rest}"])
  let text := if parts.isEmpty then "0" else ", ".intercalate parts
  s!"datetime.timedelta({text})"

/-- The spelling of an offset in a message. -/
def offsetText (seconds : Int) : String :=
  if seconds = 0 then "datetime.timezone.utc" else s!"datetime.timezone({spanText seconds})"

/-- The numbers of a clock that a message shows. -/
def shownParts (c : Clock) : List Nat :=
  [c.hour, c.minute] ++
    if c.microsecond ≠ 0 then [c.second, c.microsecond]
    else if c.second ≠ 0 then [c.second]
    else []

/-- The spelling of a timestamp in a message. -/
def shown : Timestamp → String
  | day d => s!"datetime.date({d.year}, {d.month}, {d.day})"
  | moment d c offset =>
    let numbers := ([d.year, d.month, d.day] ++ shownParts c).map fun n => s!"{n}"
    let zone := offset.toList.map fun s => s!"tzinfo={offsetText s}"
    let text := ", ".intercalate (numbers ++ zone)
    s!"datetime.datetime({text})"

end Timestamp

namespace CalendarFault

/-- What is said about a fault. -/
def message : CalendarFault → String
  | year n => s!"year {n} is out of range"
  | month => "month must be in 1..12"
  | day => "day is out of range for month"
  | hour => "hour must be in 0..23"
  | minute => "minute must be in 0..59"
  | second => "second must be in 0..59"
  | offset seconds =>
    "offset must be a timedelta strictly between -timedelta(hours=24) and timedelta(hours=24), " ++
      s!"not {Timestamp.spanText seconds}."

end CalendarFault
end PhoneticBengali
