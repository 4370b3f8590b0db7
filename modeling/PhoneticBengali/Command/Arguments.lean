/-
# Arguments

How the words of a command line are told apart:

| word | is |
| --- | --- |
| `--` | the end of the options; all later words are operands |
| `--name=value`, `--name value` | an option with a value |
| `-nvalue`, `-n value` | the same by its letter |
| `--name`, `-n` | an option without a value |
| `-ab` | the options of several letters, of which only the last may have a value |
| any other, also `-` | an operand |

A value may itself begin with a dash.  Where options must come first, all words
from the first operand on are operands.
-/

import PhoneticBengali.Text.Basic

namespace PhoneticBengali

/-- An option of a command: its name, which is written behind two dashes, its
letter, if it has one, and whether it has a value. -/
structure Option.Form where
  name : Text
  letter : Option CodePoint
  takesValue : Bool
deriving DecidableEq, Repr

/-- The words of a command line told apart: the options with their values, in
order, and the operands. -/
structure Arguments where
  options : List (Text × Text) := []
  operands : List Text := []
deriving DecidableEq, Repr

namespace Arguments

/-- Whether an option is given. -/
def has (a : Arguments) (name : Text) : Bool :=
  a.options.any (·.1 = name)

/-- The value of an option; the last one given counts. -/
def value? (a : Arguments) (name : Text) : Option Text :=
  (a.options.reverse.find? (·.1 = name)).map (·.2)

/-- The options that a word gives, and the one whose value is the next word, if
there is such a one. -/
structure Given where
  options : List (Text × Text) := []
  open? : Option Text := none

/-- The options given by letters behind one dash. -/
def ofLetters (forms : List Option.Form) : Text → Option Given
  | [] => some {}
  | c :: rest => do
    let form ← forms.find? (·.letter = some c)
    if form.takesValue then
      return if rest.isEmpty then { open? := some form.name }
        else { options := [(form.name, rest)] }
    let given ← ofLetters forms rest
    return { given with options := (form.name, []) :: given.options }

/-- The options that a word with a dash in front gives; none if it has no
meaning. -/
def ofWord (forms : List Option.Form) (word : Text) : Option Given :=
  let spelling : Text := word.takeWhile fun (c : CodePoint) => c ≠ '='
  let value? :=
    if word.contains ('=' : CodePoint) then some (word.drop (spelling.length + 1)) else none
  match forms.find? fun form => ("--" : Text) ++ form.name = spelling, value? with
  | some form, some value =>
    if form.takesValue then some { options := [(form.name, value)] } else none
  | some form, none =>
    some (if form.takesValue then { open? := some form.name } else { options := [(form.name, [])] })
  | none, _ => if word.take 2 = "--" then none else ofLetters forms (word.drop 1)

/-- Whether a word is an option. -/
def isOption (word : Text) : Bool :=
  word.head? = some ('-' : CodePoint) && word.length > 1

/-- Operands in front of others. -/
def withOperands (words : List Text) (a : Arguments) : Arguments :=
  { a with operands := words ++ a.operands }

/-- Options in front of others. -/
def withOptions (options : List (Text × Text)) (a : Arguments) : Arguments :=
  { a with options := options ++ a.options }

/-- The words of a command line told apart, none if they have no meaning.  With
`mixed` options may also stand behind operands. -/
def ofWords (forms : List Option.Form) (mixed : Bool) : List Text → Option Arguments
  | [] => some {}
  | word :: rest =>
    if word = "--" then some { operands := rest }
    else if isOption word then
      match ofWord forms word, rest with
      | none, _ => none
      | some ⟨options, none⟩, rest => (ofWords forms mixed rest).map (withOptions options)
      | some ⟨_, some _⟩, [] => none
      | some ⟨options, some name⟩, value :: rest =>
        (ofWords forms mixed rest).map (withOptions (options ++ [(name, value)]))
    else if mixed then (ofWords forms mixed rest).map (withOperands [word])
    else some { operands := word :: rest }

end Arguments
end PhoneticBengali
