/-
# Scalars with a tag

What a scalar stands for whose tag names a kind of values:

| tag | value |
| --- | --- |
| `str` | the text |
| `null` | null, whatever the text |
| `bool` | the truth value of a word in any case |
| `int` | an integer; `0b`, `0x` and `0` in front give its base, colons base 60 |
| `float` | a floating-point number, also `inf`, `infinity` and `nan` |
| `binary` | octets in base 64 |
| `timestamp` | a timestamp |

A text that does not fit its tag is a fault.  Numerals are looked at character by
character before they are read, so that the faults are those of characters that are
not there, or of what is left to be read as digits.
-/

import PhoneticBengali.Yaml.Plain

namespace PhoneticBengali
namespace Yaml
namespace Tagged

/-- The text without underscores. -/
def withoutUnderscores (t : Text) : Text :=
  t.filter (· ≠ '_')

/-- Whether a character is a blank around a numeral. -/
def isBlank (c : CodePoint) : Bool :=
  (" \t\n\r\x0b\x0c" : Text).contains c

/-- The text without blanks at its ends. -/
def trimmed (t : Text) : Text :=
  ((t.dropWhile isBlank).reverse.dropWhile isBlank).reverse

/-- The text without the mark of a base in front. -/
def withoutMark (base : Nat) : Text → Text
  | '0' :: m :: t =>
    let mark := lowerChar m
    if base = 2 ∧ mark = "b" ∨ base = 8 ∧ mark = "o" ∨ base = 16 ∧ mark = "x" then t
    else '0' :: m :: t
  | t => t

/-- The integer that a numeral of a base spells. -/
def numeral (base : Nat) (t : Text) : Except Fault Int :=
  let (negative, u) := Plain.unsigned (trimmed t)
  let ds := withoutMark base u
  if ds.isEmpty || !Plain.areDigits base ds then .error (.badNumeral base t)
  else if base = 10 ∧ ds.length > Numeral.digitLimit then .error (.tooManyDigits ds.length)
  else
    let n := Plain.digitsValue base ds
    .ok (if negative then -(n : Int) else n)

/-- A text without its sign, and whether that is a minus; there must be a
character. -/
def unsigned (t : Text) : Except Fault (Bool × Text) :=
  if t.isEmpty then .error .noCharacter else .ok (Plain.unsigned t)

/-- An integer without a sign, whose base its first characters tell. -/
def natural (t : Text) : Except Fault Int :=
  match t with
  | [] => .error .noCharacter
  | ['0'] => .ok 0
  | '0' :: 'b' :: ds => numeral 2 ds
  | '0' :: 'x' :: ds => numeral 16 ds
  | '0' :: _ => numeral 8 t
  | _ => do
    let counts ← (Text.parts ':' t).mapM (numeral 10)
    return counts.foldl (fun n count => 60 * n + count) 0

/-- The integer that a text spells. -/
def integer (t : Text) : Except Fault Int := do
  let (negative, u) ← unsigned (withoutUnderscores t)
  let n ← natural u
  return if negative then -n else n

/-- The exponent at the end of a number: nothing, or a letter, perhaps a sign, and
digits. -/
def exponent? : Text → Option Int
  | [] => some 0
  | 'e' :: t =>
    let (negative, ds) := Plain.unsigned t
    if ds.isEmpty || !ds.all CodePoint.isDigit then none
    else
      let n := Plain.digitsValue 10 ds
      some (if negative then -(n : Int) else n)
  | _ => none

/-- The decimal number that digits, a point and an exponent spell. -/
def decimal? (t : Text) : Option Decimal := do
  let (whole, rest) := t.span CodePoint.isDigit
  let (fraction, tail) := match rest with
    | '.' :: u => u.span CodePoint.isDigit
    | _ => ([], rest)
  let e ← exponent? tail
  let digits := (whole ++ fraction).filterMap Numeral.digitValue?
  if digits.isEmpty then none
  return .ofDigits digits (e - fraction.length)

/-- The floating-point number that a text in lower case spells, with a sign or
without. -/
def number (t : Text) : Except Fault Binary64 :=
  let (negative, u) := Plain.unsigned (trimmed t)
  if u = "inf" ∨ u = "infinity" then .ok (.infinite negative)
  else if u = "nan" then .ok .undefined
  else
    match decimal? u with
    | some d => .ok (.ofDecimal negative d)
    | none => .error (.badNumber t)

/-- The floating-point number that a text spells. -/
def float (t : Text) : Except Fault Binary64 := do
  let (negative, u) ← unsigned (lowerCase (withoutUnderscores t))
  if u = ".inf" then return .infinite negative
  if u = ".nan" then return .undefined
  if u.contains ':' then
    let counts ← (Text.parts ':' u).mapM fun part =>
      match decimal? (trimmed part) with
      | some d => .ok d.magnitude
      | none => .error (.badNumber part)
    return .signed negative (← Plain.sumOfSixties 1 .zero counts.reverse)
  match ← number u with
  | .signed inner size => return .signed (negative != inner) size
  | .undefined => return .undefined

/-- The truth value that a word in any case names. -/
def truth (t : Text) : Except Fault Bool :=
  let word := lowerCase t
  match Plain.truth? word with
  | some b => .ok b
  | none => .error (.noTruth word)

/-- The timestamp that a text spells. -/
def timestamp (t : Text) : Except Fault Timestamp := do
  match ← Moment.timestamp? 1 t with
  | some x => return x
  | none => throw .noTimestamp

/-- The value of a digit of base 64. -/
def sextet? (c : CodePoint) : Option Nat :=
  if 'A' ≤ c ∧ c ≤ 'Z' then some (c.toNat - 0x41)
  else if 'a' ≤ c ∧ c ≤ 'z' then some (c.toNat - 0x61 + 26)
  else if '0' ≤ c ∧ c ≤ '9' then some (c.toNat - 0x30 + 52)
  else if c = '+' then some 62
  else if c = '/' then some 63
  else none

/-- The octets of a text in base 64, behind `count < 4` digits of a group, whose value
is `group`, and `pads` equals signs.  Enough of these end the text; other characters
have no meaning. -/
def octets (count group pads : Nat) : Text → Except Fault (List UInt8)
  | [] => if count = 0 then .ok [] else .error .badOctets
  | c :: t =>
    if c = '=' then
      if 2 ≤ count ∧ 4 ≤ count + pads + 1 then .ok []
      else octets count group (if 2 ≤ count then pads + 1 else pads) t
    else
      match sextet? c with
      | none => octets count group pads t
      | some d =>
        if count = 0 then octets 1 d 0 t
        else do
          let value := group * 64 + d
          let width := 6 - 2 * count
          let rest ← octets ((count + 1) % 4) (value % 2 ^ width) 0 t
          return UInt8.ofNat (value / 2 ^ width) :: rest

/-- The octets that a text in base 64 spells. -/
def bytes (t : Text) : Except Fault (List UInt8) :=
  if t.all fun c => c.toNat < 0x80 then octets 0 0 0 t else .error .badOctets

end Tagged
end Yaml
end PhoneticBengali
