/-
# Reading JSON

A text is one value with blanks around it and around its parts.  Objects become
mappings with text keys; a repeated key keeps its first place and takes its last
value.  A number with a point or an exponent becomes the nearest floating-point
number, as do the words `Infinity`, `-Infinity` and `NaN`; any other number is an
integer, which has no more digits than are converted.  In a string, the escapes of a
surrogate pair are one character; a half that stands alone is kept.

The functions on parts return what follows the part.
-/

import PhoneticBengali.Document.Basic
import PhoneticBengali.Text.Hex

namespace PhoneticBengali
namespace Json

/-- The text without blanks in front. -/
def skipBlanks : Text → Text
  | [] => []
  | c :: t => if c = ' ' ∨ c = '\t' ∨ c = '\n' ∨ c = '\r' then skipBlanks t else c :: t

/-- The number that four hexadecimal digits spell. -/
def hexFour? (a b c d : CodePoint) : Option Nat := do
  return Numeral.value 16
    [← Text.hexValue? a, ← Text.hexValue? b, ← Text.hexValue? c, ← Text.hexValue? d]

/-- The character of a letter after a backslash. -/
def unescape? (l : CodePoint) : Option CodePoint :=
  if l = '"' ∨ l = '\\' ∨ l = '/' then some l
  else if l = 'n' then some '\n'
  else if l = 'r' then some '\r'
  else if l = 't' then some '\t'
  else if l = 'b' then some '\x08'
  else if l = 'f' then some '\x0c'
  else none

/-- A part of a string: the number of a code point, and whether an escape of four
digits spells it. -/
structure Part where
  number : Nat
  escaped : Bool := false
deriving DecidableEq, Repr

namespace Part

/-- Whether a part is the escape of the first half of a surrogate pair. -/
def isLeading (p : Part) : Bool :=
  p.escaped && 0xD800 ≤ p.number && p.number < 0xDC00

/-- Whether a part is the escape of the second half of a surrogate pair. -/
def isTrailing (p : Part) : Bool :=
  p.escaped && 0xDC00 ≤ p.number && p.number < 0xE000

/-- The text of a string's parts.  The escapes of the two halves of a surrogate pair
are one character; any other half stands alone. -/
def join : List Part → Text
  | [] => []
  | [p] => [CodePoint.ofNat p.number]
  | p :: q :: parts =>
    if p.isLeading && q.isTrailing then
      CodePoint.ofNat (0x10000 + (p.number - 0xD800) * 0x400 + (q.number - 0xDC00)) :: join parts
    else CodePoint.ofNat p.number :: join (q :: parts)

end Part

/-- The parts of a string, after its opening quote. -/
def parts? : Text → Option (List Part × Text)
  | '"' :: t => some ([], t)
  | '\\' :: 'u' :: a :: b :: c :: d :: t => do
    let n ← hexFour? a b c d
    let (parts, rest) ← parts? t
    return (⟨n, true⟩ :: parts, rest)
  | '\\' :: l :: t => do
    let c ← unescape? l
    let (parts, rest) ← parts? t
    return (⟨c.toNat, false⟩ :: parts, rest)
  | c :: t => do
    if c.toNat < 0x20 ∨ c = '\\' then none
    let (parts, rest) ← parts? t
    return (⟨c.toNat, false⟩ :: parts, rest)
  | [] => none

/-- The rest of a string after its opening quote. -/
def stringTail (t : Text) : Option (Text × Text) :=
  (parts? t).map fun (parts, rest) => (Part.join parts, rest)

/-- The values of the digits in front, and what follows them. -/
def digits : Text → List Nat × Text
  | [] => ([], [])
  | c :: t =>
    match Numeral.digitValue? c with
    | some d =>
      let r := digits t
      (d :: r.1, r.2)
    | none => ([], c :: t)

/-- The digits of a fraction, if a point is in front. -/
def fraction? : Text → Option (List Nat × Text)
  | '.' :: t => if (digits t).1.isEmpty then none else some (digits t)
  | t => some ([], t)

/-- The digits of an exponent without its mark and sign. -/
def exponentDigits? (sign : Int) (t : Text) : Option (Option Int × Text) :=
  if (digits t).1.isEmpty then none
  else some (some (sign * Numeral.value 10 (digits t).1), (digits t).2)

/-- The exponent, if its mark is in front. -/
def exponent? : Text → Option (Option Int × Text)
  | c :: t =>
    if c = 'e' ∨ c = 'E' then
      match t with
      | '+' :: u => exponentDigits? 1 u
      | '-' :: u => exponentDigits? (-1) u
      | u => exponentDigits? 1 u
    else some (none, c :: t)
  | [] => some (none, [])

/-- What follows the word for infinity, if it is in front. -/
def infinity? : Text → Option Text
  | 'I' :: 'n' :: 'f' :: 'i' :: 'n' :: 'i' :: 't' :: 'y' :: t => some t
  | _ => none

/-- A number in digits, after its sign. -/
def numeral? (negative : Bool) (t : Text) : Option (Document × Text) := do
  let (whole, t) := digits t
  if whole.isEmpty ∨ (whole.length > 1 ∧ whole.head? = some 0) then none
  let (part, t') ← fraction? t
  let (exponent, t'') ← exponent? t'
  if part.isEmpty ∧ exponent.isNone then
    if Numeral.digitLimit < whole.length then none
    let n : Int := Numeral.value 10 whole
    return (.int (if negative then -n else n), t'')
  else
    let d := Decimal.ofDigits (whole ++ part) (exponent.getD 0 - part.length)
    return (.float (.ofDecimal negative d), t'')

/-- A number after its sign. -/
def unsigned? (negative : Bool) (t : Text) : Option (Document × Text) :=
  match infinity? t with
  | some rest => some (.float (.infinite negative), rest)
  | none => numeral? negative t

/-- A number. -/
def number? : Text → Option (Document × Text)
  | '-' :: t => unsigned? true t
  | t => unsigned? false t

mutual

/-- A value, after blanks.  The `fuel` bounds the depth and the number of its
parts. -/
def value? : (fuel : Nat) → Text → Option (Document × Text)
  | 0, _ => none
  | fuel + 1, t =>
    match skipBlanks t with
    | 'n' :: 'u' :: 'l' :: 'l' :: t => some (.null, t)
    | 't' :: 'r' :: 'u' :: 'e' :: t => some (.bool true, t)
    | 'f' :: 'a' :: 'l' :: 's' :: 'e' :: t => some (.bool false, t)
    | 'N' :: 'a' :: 'N' :: t => some (.float .undefined, t)
    | '"' :: t => (stringTail t).map fun (s, rest) => (.str s, rest)
    | '[' :: t =>
      match skipBlanks t with
      | ']' :: t => some (.list [], t)
      | t => (items? fuel t).map fun (ds, rest) => (.list ds, rest)
    | '\x7b' :: t =>
      match skipBlanks t with
      | '\x7d' :: t => some (.map [], t)
      | t => (entries? fuel t).map fun (es, rest) => (.map (Document.mergeEntries [] es), rest)
    | t => number? t

/-- The items of a list up to its closing bracket. -/
def items? : (fuel : Nat) → Text → Option (List Document × Text)
  | 0, _ => none
  | fuel + 1, t => do
    let (d, t) ← value? fuel t
    match skipBlanks t with
    | ']' :: t => return ([d], t)
    | ',' :: t =>
      let (ds, rest) ← items? fuel t
      return (d :: ds, rest)
    | _ => none

/-- The entries of an object up to its closing brace. -/
def entries? : (fuel : Nat) → Text → Option (List (Document × Document) × Text)
  | 0, _ => none
  | fuel + 1, t =>
    match skipBlanks t with
    | '"' :: t => do
      let (k, t) ← stringTail t
      match skipBlanks t with
      | ':' :: t =>
        let (v, t) ← value? fuel t
        match skipBlanks t with
        | '\x7d' :: t => return ([(.str k, v)], t)
        | ',' :: t =>
          let (es, rest) ← entries? fuel t
          return ((.str k, v) :: es, rest)
        | _ => none
      | _ => none
    | _ => none

end

/-- The document that a text spells, if it is JSON. -/
def decode (t : Text) : Option Document := do
  let (d, rest) ← value? (t.length + 1) t
  if (skipBlanks rest).isEmpty then some d else none

end Json
end PhoneticBengali
