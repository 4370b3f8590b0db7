/-
# Documents on one line

How a document is shown inside a message:

| document | spelling |
| --- | --- |
| null, truth values | `None`, `True`, `False` |
| integers | their decimal numeral |
| floating-point numbers | their shortest decimal numeral, `inf`, `nan` |
| text | quoted |
| octets | quoted behind a `b` |
| timestamp | `datetime.…(…)` |
| list | `[…, …]` |
| pair | `(…, …)` |
| set | `{…, …}`, `set()` if it is empty |
| mapping | `{…: …, …: …}` |

A document that holds an integer of more digits than are converted cannot be shown.
-/

import PhoneticBengali.Document.Basic
import PhoneticBengali.Text.Quoted

namespace PhoneticBengali
namespace Document

mutual

/-- A document as a message shows it. -/
def inline : Document → Text
  | null => "None"
  | bool b => if b then "True" else "False"
  | int n => Numeral.ofInt n
  | float x => x.text "inf" "nan"
  | str s => Text.quoted s
  | bytes octets => 'b' :: Text.quotedOctets octets
  | time x => x.shown
  | list items => "[" ++ (", " : Text).intercalate (inlineItems items) ++ "]"
  | pair x y => "(" ++ inline x ++ ", " ++ inline y ++ ")"
  | set items =>
    if items.isEmpty then "set()"
    else "\x7b" ++ (", " : Text).intercalate (inlineItems items) ++ "\x7d"
  | map entries => "\x7b" ++ (", " : Text).intercalate (inlineEntries entries) ++ "\x7d"

/-- Each item as a message shows it. -/
def inlineItems : List Document → List Text
  | [] => []
  | d :: rest => inline d :: inlineItems rest

/-- Each entry as a message shows it. -/
def inlineEntries : List (Document × Document) → List Text
  | [] => []
  | (k, v) :: rest => (inline k ++ ": " ++ inline v) :: inlineEntries rest

end

mutual

/-- Whether a document holds an integer of more digits than are converted. -/
def holdsLong : Document → Bool
  | int n => Numeral.isLong n
  | list items => anyLong items
  | pair x y => holdsLong x || holdsLong y
  | set items => anyLong items
  | map entries => anyEntryLong entries
  | _ => false

/-- Whether an item holds such an integer. -/
def anyLong : List Document → Bool
  | [] => false
  | d :: rest => holdsLong d || anyLong rest

/-- Whether a key or a value holds such an integer. -/
def anyEntryLong : List (Document × Document) → Bool
  | [] => false
  | (k, v) :: rest => holdsLong k || holdsLong v || anyEntryLong rest

end

/-- A document as a message shows it, if it can be shown. -/
def shown (d : Document) : Except NumeralFault Text :=
  if d.holdsLong then .error .tooLong else .ok d.inline

/-- A message that shows a document.  If it cannot be shown, the message says why. -/
def showIn (d : Document) (message : Text → Text) : Text :=
  match d.shown with
  | .ok t => message t
  | .error fault => fault.message

end Document
end PhoneticBengali
