/-
# Conditions at given offsets

A condition can also be asked about any two offsets of a text, in order or not
and inside the text or not.  Offsets in order and inside the text cut it into a
left part, a match and a right part, and then `holdsAt` is `holds`.

| scope | looks at |
| --- | --- |
| `letter` | the character at `start - 1` or at `stop`; none there counts as a text edge |
| `exact` | the window of the literal's length that ends at `start` or begins at `stop` |

A window that leaves the text holds no literal: it meets a negated test and fails
a plain one.
-/

import PhoneticBengali.Rule.Basic

namespace PhoneticBengali

/-- The characters from `start` on and before `stop`.  A negative `stop` counts
from the end of the text. -/
def slice (t : Text) (start : Nat) (stop : Int) : Text :=
  let stop := if stop < 0 then (stop + t.length).toNat else stop.toNat
  (t.take stop).drop start

/-- Whether the window from `start` to `stop` is `needle`, the answer inverted
if `negate` is set.  A window that leaves the text is not. -/
def windowIs (needle t : Text) (start stop : Int) (negate : Bool) : Bool :=
  if start < 0 ∨ (t.length : Int) < stop then negate
  else (slice t start.toNat stop == needle) != negate

namespace Condition

/-- Whether a condition holds for a match of `t` from `start` to `stop`. -/
def holdsAt (c : Condition) (t : Text) (start stop : Int) : Bool :=
  let offset : Int := match c.side with
    | .before => start - 1
    | .after => stop
  match c.scope, c.literal with
  | .exact, some (x :: xs) =>
    let n : Int := (x :: xs).length
    match c.side with
    | .before => windowIs (x :: xs) t (start - n) start c.negate
    | .after => windowIs (x :: xs) t stop (stop + n) c.negate
  | .exact, _ => false
  | .letter k, _ =>
    let neighbour := if offset < 0 then [] else t.drop offset.toNat
    (LetterClass.ofNeighbour neighbour == k) != c.negate
  | .other _, _ => false

end Condition
end PhoneticBengali
