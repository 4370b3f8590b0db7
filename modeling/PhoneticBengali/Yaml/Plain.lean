/-
# Plain scalars as values

What a plain scalar without a tag stands for.  An underscore among digits has no
meaning.

| form | value |
| --- | --- |
| empty, `~`, `null` | null |
| `true`, `yes`, `on`, `false`, `no`, `off` | truth values |
| `12`, `-1_000` | decimal integers |
| `017`, `0x1f`, `0b11` | integers of base 8, 16 and 2 |
| `1:30` | integers of base 60 |
| `1.5`, `.5`, `2.5e+3`, `.inf`, `-.inf`, `.nan` | floating-point numbers |
| `1:30.5` | floating-point numbers of base 60 |
| `2001-12-14`, `2001-12-14 21:59:43` | timestamps |
| all else | text |

Words are also read with a capital in front, or all in capitals.
-/

import PhoneticBengali.Document.Basic
import PhoneticBengali.Text.Hex
import PhoneticBengali.Text.LowerCase
import PhoneticBengali.Text.Parts
import PhoneticBengali.Yaml.Moment

namespace PhoneticBengali
namespace Yaml
namespace Plain

/-- A word in its three spellings. -/
def spellings (word : String) : List Text :=
  [word, word.capitalize, word.toUpper]

/-- Whether a text is one of some words. -/
def isOneOf (words : List String) (t : Text) : Bool :=
  (words.flatMap spellings).contains t

/-- The truth value that a text names. -/
def truth? (t : Text) : Option Bool :=
  if isOneOf ["yes", "true", "on"] t then some true
  else if isOneOf ["no", "false", "off"] t then some false
  else none

/-- Whether a text stands for null. -/
def isNull (t : Text) : Bool :=
  t.isEmpty || t = "~" || isOneOf ["null"] t

/-- Whether a text has a sign that makes it negative, and the text without its
sign. -/
def unsigned : Text → Bool × Text
  | '-' :: t => (true, t)
  | '+' :: t => (false, t)
  | t => (false, t)

/-- Whether a text holds only digits of a base, and underscores. -/
def areDigits (base : Nat) (t : Text) : Bool :=
  t.all fun (c : CodePoint) => c = '_' || (Text.hexValue? c).any (· < base)

/-- The value of digits of a base, among which underscores may stand. -/
def digitsValue (base : Nat) (t : Text) : Nat :=
  Numeral.value base (t.filterMap Text.hexValue?)

/-- Digits in front and underscores among them, and the rest. -/
def spanDigits (t : Text) : Text × Text :=
  t.span fun (c : CodePoint) => c = '_' || c.isDigit

/-- A count below sixty in front, of two digits or one, and the rest. -/
def sixtieth? : Text → Option (Nat × Text)
  | c :: d :: t =>
    match Numeral.digitValue? c, Numeral.digitValue? d with
    | some x, some y => if x < 6 then some (10 * x + y, t) else none
    | some x, none => some (x, d :: t)
    | none, _ => none
  | [c] => (Numeral.digitValue? c).map (·, [])
  | [] => none

/-- The value of `n` followed by counts of sixtieths, each with a colon in front,
and the rest. -/
def sixtieths : (fuel : Nat) → (n : Nat) → Text → Nat × Text
  | 0, n, t => (n, t)
  | fuel + 1, n, t =>
    match t with
    | ':' :: u =>
      match sixtieth? u with
      | some (k, rest) => sixtieths fuel (60 * n + k) rest
      | none => (n, t)
    | _ => (n, t)

/-- An integer without a sign, if the text is one. -/
def natural? (t : Text) : Except Fault (Option Nat) :=
  match t with
  | '0' :: 'b' :: ds =>
    if ds.isEmpty || !areDigits 2 ds then .ok none
    else if ds.all (· = ('_' : CodePoint)) then .error (.badNumeral 2 [])
    else .ok (some (digitsValue 2 ds))
  | '0' :: 'x' :: ds =>
    if ds.isEmpty || !areDigits 16 ds then .ok none
    else if ds.all (· = ('_' : CodePoint)) then .error (.badNumeral 16 [])
    else .ok (some (digitsValue 16 ds))
  | '0' :: ds => .ok (if areDigits 8 ds then some (digitsValue 8 ds) else none)
  | c :: _ =>
    if !c.isDigit then .ok none
    else
      let (ds, rest) := spanDigits t
      let (n, rest) := sixtieths t.length (digitsValue 10 ds) rest
      let count := ds.countP CodePoint.isDigit
      if !rest.isEmpty then .ok none
      else if count > Numeral.digitLimit then .error (.tooManyDigits count)
      else .ok (some n)
  | [] => .ok none

/-- An integer, if the text is one. -/
def integer? (t : Text) : Except Fault (Option Int) := do
  let (isNegative, u) := unsigned t
  let n ← natural? u
  return n.map fun n => if isNegative then -(n : Int) else n

/-- The exponent at the end of a number: nothing, or a letter, a sign and
digits. -/
def exponent? : Text → Option Int
  | [] => some 0
  | e :: sign :: ds =>
    if (e = 'e' ∨ e = 'E') ∧ (sign = '+' ∨ sign = '-') ∧ !ds.isEmpty ∧ ds.all CodePoint.isDigit then
      let n := digitsValue 10 ds
      some (if sign = '-' then -(n : Int) else n)
    else none
  | _ => none

/-- The spellings of infinity without a sign. -/
def infinities : List Text :=
  [".inf", ".Inf", ".INF"]

/-- The spellings of what is undefined. -/
def undefineds : List Text :=
  [".nan", ".NaN", ".NAN"]

/-- Whether digits in front, with underscores among them, are followed by nothing
but an exponent. -/
def isFraction (t : Text) : Bool :=
  (exponent? (spanDigits t).2).isSome

/-- Whether a text has the form of a floating-point number.  Before a point in
front there is no sign, and with counts of sixtieths there is no exponent. -/
def isFloat (t : Text) : Bool :=
  let u := (unsigned t).2
  if infinities.contains u || undefineds.contains t then true
  else
    match u with
    | '.' :: f => u = t && f.head?.any CodePoint.isDigit && isFraction f
    | _ =>
      let rest := (spanDigits u).2
      let after := (sixtieths rest.length 0 rest).2
      match after with
      | '.' :: f =>
        u.head?.any CodePoint.isDigit &&
          if after.length = rest.length then isFraction f else (spanDigits f).2.isEmpty
      | _ => false

/-- The decimal number that digits, a point and an exponent spell. -/
def decimal? (t : Text) : Option Decimal := do
  let (whole, rest) := spanDigits t
  let (fraction, tail) := match rest with
    | '.' :: u => spanDigits u
    | _ => ([], rest)
  let e ← exponent? tail
  let wholeDigits := whole.filterMap Numeral.digitValue?
  let fractionDigits := fraction.filterMap Numeral.digitValue?
  let digits := wholeDigits ++ fractionDigits
  if digits.isEmpty then none
  return .ofDigits digits (e - fractionDigits.length)

/-- The sum of counts, the first of which are worth `worth` ones each, and any
other sixty times as much as the one before it.  Each product and each sum is
rounded. -/
def sumOfSixties (worth : Nat) (sum : Magnitude) : List Magnitude → Except Fault Magnitude
  | [] => .ok sum
  | count :: rest =>
    let factor := Magnitude.ofNat worth
    if factor = .infinity then .error .tooManyCounts
    else sumOfSixties (60 * worth) (sum.add (count.mul factor)) rest

/-- The floating-point number that a text spells, in any case. -/
def floatValue? (t : Text) : Except Fault (Option Binary64) :=
  let (negative, u) := unsigned (lowerCase t)
  if u = ".inf" then .ok (some (.infinite negative))
  else if u = ".nan" then .ok (some .undefined)
  else
    match (Text.parts ':' u).mapM decimal? with
    | none => .ok none
    | some [d] => .ok (some (.ofDecimal negative d))
    | some counts => do
      let size ← sumOfSixties 1 .zero (counts.reverse.map Decimal.magnitude)
      return some (.signed negative size)

/-- A floating-point number, if the text has the form of one. -/
def float? (t : Text) : Except Fault (Option Binary64) :=
  if isFloat t then floatValue? t else .ok none

/-- The value of a plain scalar. -/
def value (t : Text) : Except Fault Document := do
  if isNull t then return .null
  if let some b := truth? t then return .bool b
  if let some n ← integer? t then return .int n
  if let some x ← float? t then return .float x
  if let some x ← Moment.timestamp? 2 t then return .time x
  return .str t

end Plain
end Yaml
end PhoneticBengali
