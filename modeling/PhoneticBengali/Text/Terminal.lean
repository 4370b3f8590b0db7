/-
# Terminal sequences

A terminal reads some characters as an order, for a colour or a move:

| part | characters |
| --- | --- |
| introducer | `U+001B` and an opening bracket |
| parameters, any number | `0` to `?`: digits, `:`, `;`, `<`, `=`, `>`, `?` |
| intermediates, any number | the space to `/` |
| final | `@` to `~`, the letters among them |

An introducer that begins no such sequence stands for itself.
-/

import PhoneticBengali.Text.Basic

namespace PhoneticBengali
namespace Text

/-- Whether a character is a parameter of a terminal sequence. -/
def isParameter (c : CodePoint) : Bool :=
  '0' ≤ c && c ≤ '?'

/-- Whether a character is an intermediate of a terminal sequence. -/
def isIntermediate (c : CodePoint) : Bool :=
  ' ' ≤ c && c ≤ '/'

/-- Whether a character ends a terminal sequence. -/
def isFinal (c : CodePoint) : Bool :=
  '@' ≤ c && c ≤ '~'

/-- The length of the terminal sequence in front, zero if there is none. -/
def sequenceLength : Text → Nat
  | '\x1b' :: '[' :: t =>
    let parameters := t.takeWhile isParameter
    let intermediates := (t.dropWhile isParameter).takeWhile isIntermediate
    let middle := parameters.length + intermediates.length
    if (t.drop middle).head?.any isFinal then middle + 3 else 0
  | _ => 0

/-- The text without its terminal sequences. -/
def withoutSequences (t : Text) : Text :=
  go 0 t
where
  /-- The text without its first `skipped` characters and without the sequences
  after them. -/
  go : (skipped : Nat) → Text → Text
    | _, [] => []
    | skipped + 1, _ :: t => go skipped t
    | 0, c :: t =>
      match sequenceLength (c :: t) with
      | 0 => c :: go 0 t
      | length + 1 => go length t

end Text
end PhoneticBengali
