/-
# UTF-8

Texts as octets.  The first octet of a character tells how many follow it, and
the bounds of the second one:

| first | following | second |
| --- | --- | --- |
| `00` to `7F` | 0 | |
| `C2` to `DF` | 1 | `80` to `BF` |
| `E0` | 2 | `A0` to `BF` |
| `E1` to `EC`, `EE`, `EF` | 2 | `80` to `BF` |
| `ED` | 2 | `80` to `9F` |
| `F0` | 3 | `90` to `BF` |
| `F1` to `F3` | 3 | `80` to `BF` |
| `F4` | 3 | `80` to `8F` |

All later octets lie from `80` to `BF`.  Reading stops at the first octet that
rules the text out, and blames the character it stands in up to there.
-/

import PhoneticBengali.Number.Numeral
import PhoneticBengali.Text.Hex

namespace PhoneticBengali
namespace Utf8

/-- A sequence of octets. -/
abbrev Octets := List UInt8

/-- The octets of a code point.  Half of a surrogate pair has no form; a half from
`U+DC80` to `U+DCFF` stands for an octet that is no part of a character. -/
def encodePoint : CodePoint → Octets
  | .scalar c => String.utf8EncodeChar c
  | .surrogate n => if 0x480 ≤ n ∧ n < 0x500 then [UInt8.ofNat (n - 0x400)] else []

/-- The octets of a text. -/
def encode (t : Text) : Octets :=
  t.flatMap encodePoint

/-- The octets of a text are those of its parts. -/
theorem encode_append (t u : Text) : encode (t ++ u) = encode t ++ encode u :=
  List.flatMap_append

/-- What rules out that octets are a text. -/
inductive Cause where
  /-- An octet that begins no character. -/
  | start
  /-- An octet that cannot follow those before it. -/
  | continuation
  /-- The end inside a character. -/
  | unexpectedEnd
deriving DecidableEq, Repr

/-- What is said about a cause. -/
def Cause.message : Cause → String
  | start => "invalid start byte"
  | continuation => "invalid continuation byte"
  | unexpectedEnd => "unexpected end of data"

/-- The octets that are no character: the first of them, how many they are and
how many come before. -/
structure Fault where
  cause : Cause
  first : UInt8
  count : Nat
  position : Nat
deriving DecidableEq, Repr

/-- What is said about a fault. -/
def Fault.message (f : Fault) : Text :=
  let place : Text :=
    if f.count = 1 then
      "byte 0x" ++ Text.hexDigits 2 f.first.toNat ++ " in position " ++ Numeral.ofNat f.position
    else
      "bytes in position " ++ Numeral.ofNat f.position ++ "-" ++
        Numeral.ofNat (f.position + f.count - 1)
  "'utf-8' codec can't decode " ++ place ++ ": " ++ f.cause.message

/-- Code points that have no form: the first of them, how many there are in a row
and how many come before. -/
structure EncodeFault where
  first : CodePoint
  count : Nat
  position : Nat
deriving DecidableEq, Repr

/-- What is said about such code points. -/
def EncodeFault.message (f : EncodeFault) : Text :=
  let place : Text :=
    if f.count = 1 then
      "character '\\u" ++ Text.hexDigits 4 f.first.toNat ++ "' in position " ++
        Numeral.ofNat f.position
    else
      "characters in position " ++ Numeral.ofNat f.position ++ "-" ++
        Numeral.ofNat (f.position + f.count - 1)
  "'utf-8' codec can't encode " ++ place ++ ": surrogates not allowed"

/-- The first code point of a text that is `refused`, with the halves of pairs
behind it. -/
def firstRefused? (refused : CodePoint → Bool) (t : Text) : Option EncodeFault :=
  match t.dropWhile (!refused ·) with
  | [] => none
  | c :: rest =>
    some ⟨c, (rest.takeWhile (·.isSurrogate)).length + 1, (t.takeWhile (!refused ·)).length⟩

/-- What of a text has no form in UTF-8. -/
def encodeFault? (t : Text) : Option EncodeFault :=
  firstRefused? (·.isSurrogate) t

/-- Whether a text has a form in UTF-8. -/
def isEncodable (t : Text) : Bool :=
  t.all (!·.isSurrogate)

/-- A character under way: its octets so far, last one first, the number that is
owed, the bounds of the next one and the value read. -/
structure Partial where
  octets : Octets
  owed : Nat
  low : Nat := 0x80
  high : Nat := 0xBF
  value : Nat
deriving DecidableEq, Repr

/-- The character that an octet above `7F` begins. -/
def begin? (b : UInt8) : Option Partial :=
  let n := b.toNat
  if 0xC2 ≤ n ∧ n ≤ 0xDF then some { octets := [b], owed := 1, value := n - 0xC0 }
  else if n = 0xE0 then some { octets := [b], owed := 2, low := 0xA0, value := 0 }
  else if n = 0xED then some { octets := [b], owed := 2, high := 0x9F, value := 0xD }
  else if 0xE1 ≤ n ∧ n ≤ 0xEF then some { octets := [b], owed := 2, value := n - 0xE0 }
  else if n = 0xF0 then some { octets := [b], owed := 3, low := 0x90, value := 0 }
  else if 0xF1 ≤ n ∧ n ≤ 0xF3 then some { octets := [b], owed := 3, value := n - 0xF0 }
  else if n = 0xF4 then some { octets := [b], owed := 3, high := 0x8F, value := 4 }
  else none

/-- The fault of a character under way when `position` octets came before what
rules it out. -/
def Partial.fault (p : Partial) (cause : Cause) (position : Nat) : Fault :=
  ⟨cause, p.octets.getLastD 0, p.octets.length, position - p.octets.length⟩

/-- The text of octets that come after `position` others, and the character that
is under way at their end. -/
def read (position : Nat) : Option Partial → Octets → Except Fault (Text × Option Partial)
  | p, [] => .ok ([], p)
  | none, b :: rest =>
    if b.toNat ≤ 0x7F then do
      let (t, p) ← read (position + 1) none rest
      return (CodePoint.ofNat b.toNat :: t, p)
    else
      match begin? b with
      | none => .error ⟨.start, b, 1, position⟩
      | some p => read (position + 1) (some p) rest
  | some p, b :: rest =>
    if p.low ≤ b.toNat ∧ b.toNat ≤ p.high then
      let value := 0x40 * p.value + (b.toNat - 0x80)
      if p.owed = 1 then do
        let (t, q) ← read (position + 1) none rest
        return (CodePoint.ofNat value :: t, q)
      else
        read (position + 1) (some { octets := b :: p.octets, owed := p.owed - 1, value }) rest
    else .error (p.fault .continuation position)

/-- The text of octets. -/
def decode (octets : Octets) : Except Fault Text := do
  let (t, p) ← read 0 none octets
  match p with
  | none => return t
  | some p => throw (p.fault .unexpectedEnd octets.length)

/-- The text of octets that are read in portions of `size`, each of which counts
its positions from the character under way at its start. -/
def decodePortions (size : Nat) :
    (fuel : Nat) → Option Partial → Octets → Except Fault Text
  | 0, _, _ => .ok []
  | fuel + 1, p, octets => do
    let held := (p.map (·.octets.length)).getD 0
    if octets.isEmpty then
      match p with
      | none => return []
      | some p => throw (p.fault .unexpectedEnd held)
    else
      let (t, p) ← read held p (octets.take size)
      return t ++ (← decodePortions size fuel p (octets.drop size))

end Utf8
end PhoneticBengali
