/-
# Quoted texts

How a text is shown inside a message: between quotes, on one line, with every
unprintable character spelled out.

| character | spelling |
| --- | --- |
| `\` and the enclosing quote | after a backslash |
| tab, line feed, carriage return | `\t`, `\n`, `\r` |
| any other unprintable one | `\xhh`, `\uhhhh` or `\Uhhhhhhhh` |
| all others | themselves |

Single quotes enclose the text, unless it holds a single quote and no double
one: then double quotes do.

Octets are quoted like the characters of their numbers, but those above `7E` are all
spelled out.
-/

import PhoneticBengali.Text.Hex
import PhoneticBengali.Text.Printable

namespace PhoneticBengali
namespace Text

/-- The spelling of a character between the quotes `quote`. -/
def quotedChar (quote c : CodePoint) : Text :=
  if c = quote ∨ c = '\\' then ['\\', c]
  else if c = '\t' then ['\\', 't']
  else if c = '\n' then ['\\', 'n']
  else if c = '\r' then ['\\', 'r']
  else if isPrintable c then [c]
  else if c.toNat < 0x100 then '\\' :: 'x' :: hexDigits 2 c.toNat
  else if c.toNat < 0x10000 then '\\' :: 'u' :: hexDigits 4 c.toNat
  else '\\' :: 'U' :: hexDigits 8 c.toNat

/-- The quote that encloses a text. -/
def quoteFor (t : Text) : CodePoint :=
  if t.contains '\'' && !t.contains '"' then '"' else '\''

/-- A text as a message shows it. -/
def quoted (t : Text) : Text :=
  let quote := quoteFor t
  [quote] ++ t.flatMap (quotedChar quote) ++ [quote]

/-- Octets as a message shows them. -/
def quotedOctets (octets : List UInt8) : Text :=
  let t : Text := octets.map fun b => CodePoint.ofNat b.toNat
  let quote := quoteFor t
  let spell (c : CodePoint) : Text :=
    if c.toNat < 0x7F then quotedChar quote c else '\\' :: 'x' :: hexDigits 2 c.toNat
  [quote] ++ t.flatMap spell ++ [quote]

/-- The text with the halves of surrogate pairs spelled out. -/
def withHalvesSpelled (t : Text) : Text :=
  t.flatMap fun c => if c.isSurrogate then '\\' :: 'u' :: hexDigits 4 c.toNat else [c]

end Text
end PhoneticBengali
