/-
# Typing word by word

A keyboard shows romanized characters as they are typed and remembers them as
the pending word.  At the end of the word they are swapped for its Bengali form:
the edit deletes as many characters before the cursor as are pending, and
inserts the converted word.

| step | pending word |
| --- | --- |
| type `s` | gets `s` at its end |
| backspace | loses its last character, if any |
| discard | is dropped |
| commit | is dropped and, unless empty, converted |
-/

import PhoneticBengali.Forward

namespace PhoneticBengali

/-- A change of a text field at its cursor: deletion first, then insertion. -/
structure Edit where
  delete : Nat
  insert : Text
deriving DecidableEq, Repr

namespace Edit

/-- The field after an edit, with the cursor at its end. -/
def apply (e : Edit) (field : Text) : Text :=
  field.take (field.length - e.delete) ++ e.insert

end Edit

/-- A step of a typing session. -/
inductive Keystroke where
  | type (t : Text)
  | backspace
  | discard
  | commit
deriving DecidableEq, Repr

namespace Keystroke

/-- The pending word after a step. -/
def pending (word : Text) : Keystroke → Text
  | type t => word ++ t
  | backspace => word.dropLast
  | discard => []
  | commit => []

/-- The edit that a step asks for. -/
def edit? (table : RuleTable) (word : Text) : Keystroke → Option Edit
  | commit => if word.isEmpty then none else some ⟨word.length, table.toBengali word⟩
  | _ => none

end Keystroke
end PhoneticBengali
