/-
# Writing JSON

A document is written on one line, or with each item and entry on a line of its
own behind an indentation.  Characters beyond ASCII stand for themselves; inside
a string these are escaped:

| character | escape |
| --- | --- |
| `"` and `\` | after a backslash |
| `U+0008`, `U+0009`, `U+000A`, `U+000C`, `U+000D` | `\b`, `\t`, `\n`, `\f`, `\r` |
| any other below `U+0020` | `\u00hh` |

A floating-point number is written with the fewest digits that are read as that
number.  Infinity is the word `Infinity`, and what is undefined the word `NaN`.  A
key that is no text is written as the string of its own spelling, and a pair as a
list.  Timestamps, octets and sets are no part of JSON, neither as values nor as
keys, and an integer of more digits than are converted is not written.
-/

import PhoneticBengali.Document.Basic
import PhoneticBengali.Text.Hex

namespace PhoneticBengali
namespace Json

/-- The letter that stands for a character after a backslash. -/
def escapeLetter? (c : CodePoint) : Option CodePoint :=
  if c = '"' ∨ c = '\\' then some c
  else if c = '\n' then some 'n'
  else if c = '\r' then some 'r'
  else if c = '\t' then some 't'
  else if c.toNat = 0x08 then some 'b'
  else if c.toNat = 0x0C then some 'f'
  else none

/-- A character as it stands inside a string. -/
def escapeChar (c : CodePoint) : Text :=
  match escapeLetter? c with
  | some l => ['\\', l]
  | none =>
    if c.toNat < 0x20 then '\\' :: 'u' :: Text.hexDigits 4 c.toNat else [c]

/-- A text as a string. -/
def string (t : Text) : Text :=
  "\"" ++ t.flatMap escapeChar ++ "\""

/-- How items and entries are set apart. -/
inductive Layout where
  | line
  | indented (unit : Text)
deriving DecidableEq, Repr

namespace Layout

/-- The layout that a document asks for: null for one line, and else the unit of
the indentation, or its number of spaces. -/
def ofDocument? : Document → Option Layout
  | .null => some line
  | .bool b => some (indented (if b then [' '] else []))
  | .int n => some (indented (List.replicate n.toNat ' '))
  | .str s => some (indented s)
  | _ => none

/-- What stands before an item at a depth. -/
def start : Layout → (depth : Nat) → Text
  | line, _ => []
  | indented unit, depth => '\n' :: (List.replicate depth unit).flatten

/-- What stands between two items at a depth. -/
def separator : Layout → (depth : Nat) → Text
  | line, _ => [',', ' ']
  | indented unit, depth => ',' :: start (indented unit) depth

end Layout

/-- A floating-point number. -/
def float (x : Binary64) : Text :=
  x.text "Infinity" "NaN"

/-- A key of a mapping. -/
def key : Document → Text
  | .str s => s
  | .null => "null"
  | .bool b => if b then "true" else "false"
  | .int n => Numeral.ofInt n
  | .float x => float x
  | _ => []

/-- Parts of a list or a mapping at a depth, between brackets. -/
def enclose (layout : Layout) (depth : Nat) (opening closing : CodePoint) (parts : List Text) :
    Text :=
  if parts.isEmpty then [opening, closing]
  else [opening] ++ layout.start (depth + 1) ++
    (layout.separator (depth + 1)).intercalate parts ++ layout.start depth ++ [closing]

mutual

/-- A document at a depth. -/
def write (layout : Layout) (depth : Nat) : Document → Text
  | .null => "null"
  | .bool b => if b then "true" else "false"
  | .int n => Numeral.ofInt n
  | .float x => float x
  | .str s => string s
  | .list items => enclose layout depth '[' ']' (writeItems layout (depth + 1) items)
  | .pair x y =>
    enclose layout depth '[' ']' [write layout (depth + 1) x, write layout (depth + 1) y]
  | .map entries => enclose layout depth '\x7b' '\x7d' (writeEntries layout (depth + 1) entries)
  | _ => []

/-- Each item at a depth. -/
def writeItems (layout : Layout) (depth : Nat) : List Document → List Text
  | [] => []
  | d :: rest => write layout depth d :: writeItems layout depth rest

/-- Each entry at a depth. -/
def writeEntries (layout : Layout) (depth : Nat) : List (Document × Document) → List Text
  | [] => []
  | (k, v) :: rest =>
    (string (key k) ++ ": " ++ write layout depth v) :: writeEntries layout depth rest

end

/-- Why JSON has no form for a document: of a value or a key in it, or for the digits
of an integer. -/
inductive FormFault where
  | value (kind : String)
  | key (kind : String)
  | numeral (fault : NumeralFault)
deriving DecidableEq, Repr

/-- What is said about such a document. -/
def FormFault.message : FormFault → String
  | value kind => s!"Object of type {kind} is not JSON serializable"
  | key kind => s!"keys must be str, int, float, bool or None, not {kind}"
  | numeral fault => fault.message

/-- The fault of an integer, if it is too long. -/
def numeralFault? (n : Int) : Option FormFault :=
  if Numeral.isLong n then some (.numeral .tooLong) else none

/-- What is wrong with a key. -/
def keyFault? : Document → Option FormFault
  | .str _ | .null | .bool _ | .float _ => none
  | .int n => numeralFault? n
  | d => some (.key d.kind)

mutual

/-- The first fault in a document. -/
def formFault? : Document → Option FormFault
  | .null | .bool _ | .float _ | .str _ => none
  | .int n => numeralFault? n
  | .list items => itemsFault? items
  | .pair x y => (formFault? x).or (formFault? y)
  | .map entries => entriesFault? entries
  | .time x => some (.value x.kind)
  | .bytes _ => some (.value "bytes")
  | .set _ => some (.value "set")

/-- The first fault in the items of a list. -/
def itemsFault? : List Document → Option FormFault
  | [] => none
  | d :: rest => (formFault? d).or (itemsFault? rest)

/-- The first fault in the entries of a mapping, in each of which the key comes
before the value. -/
def entriesFault? : List (Document × Document) → Option FormFault
  | [] => none
  | (k, v) :: rest => (keyFault? k).or ((formFault? v).or (entriesFault? rest))

end

/-- Whether JSON has a form for a document. -/
def hasForm (d : Document) : Bool :=
  (formFault? d).isNone

/-- A document as JSON text. -/
def encode (layout : Layout) (d : Document) : Text :=
  write layout 0 d

end Json
end PhoneticBengali
