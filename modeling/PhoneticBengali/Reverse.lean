/-
# From Bengali back to the romanization

The reverse of a rule table has its rules turned around, the longest literal
first; rules that give equal literals keep their order.  Left out are

| rule | because |
| --- | --- |
| with an empty `find` or `replace` | one side could not be matched or told |
| with `find = o` | the inherent vowel is not written |

A text is scanned from left to right.  Each pass either replaces the literal of
the first rule that stands at the cursor or copies a character; alternatives are
not looked at.  A rule with an empty literal leaves the cursor where it is, so a
scan of `n` characters ends after `2n` passes at the latest, and what it has not
reached by then is dropped.  Marks without a romanized counterpart are removed
from the output at the end.
-/

import PhoneticBengali.Rule.Basic

namespace PhoneticBengali
namespace Rule

/-- The literal of the inherent vowel. -/
def inherentVowel : Text :=
  ['o']

/-- Whether a rule has a place in the reverse table. -/
def isReversible (r : Rule) : Bool :=
  !r.find.isEmpty && !r.replace.isEmpty && r.find != inherentVowel

/-- The rule from `replace` to `find`; the alternatives are carried along. -/
def turned (r : Rule) : Rule where
  find := r.replace
  replace := r.find
  alternatives := r.alternatives

end Rule

namespace RuleTable

/-- Places a rule before the first one whose literal is not longer. -/
def insertByLength (r : Rule) : RuleTable → RuleTable
  | [] => [r]
  | s :: table =>
    if s.find.length ≤ r.find.length then r :: s :: table else s :: insertByLength r table

/-- The rules with the longest literals first; literals of equal length keep
their order. -/
def longestFirst (table : RuleTable) : RuleTable :=
  table.foldr insertByLength []

/-- The rules that lead back from the outputs of a table. -/
def reverse (table : RuleTable) : RuleTable :=
  longestFirst ((table.filter (·.isReversible)).map (·.turned))

end RuleTable

/-- What a character becomes in the romanized text: the literal break, hasanta,
zero-width joiner and nukta vanish, and six independent vowels that no rule
leads back from get a letter. -/
def cleanupChar (c : CodePoint) : Text :=
  if c = '\x60' ∨ c = '\u09cd' ∨ c = '\u200d' ∨ c = '\u09bc' then []
  else if c = 'আ' then ['a']
  else if c = 'অ' then ['o']
  else if c = 'ই' then ['i']
  else if c = 'ঈ' then ['e']
  else if c = 'উ' then ['u']
  else if c = 'এ' then ['e']
  else [c]

/-- A text without marks that have no romanized counterpart. -/
def cleanup (t : Text) : Text :=
  t.flatMap cleanupChar

/-- The course of a reverse scan: what its passes put out, in order, and the text
it did not reach. -/
structure Course where
  outputs : List Text
  unreached : Text
deriving DecidableEq, Repr

namespace Course

/-- A course with one more pass in front. -/
def after (output : Text) (c : Course) : Course :=
  { c with outputs := output :: c.outputs }

end Course

namespace RuleTable

/-- The course of at most `passes` passes over `t`. -/
def courseWithin (table : RuleTable) : (passes : Nat) → (t : Text) → Course
  | _, [] => ⟨[], []⟩
  | 0, c :: rest => ⟨[], c :: rest⟩
  | passes + 1, c :: rest =>
    match table.first? (c :: rest) with
    | some r => (courseWithin table passes ((c :: rest).drop r.find.length)).after r.replace
    | none => (courseWithin table passes rest).after [c]

/-- The course of a scan: a text of `n` characters is given `2n` passes. -/
def course (table : RuleTable) (t : Text) : Course :=
  courseWithin table (2 * t.length) t

end RuleTable

/-- The result of a reverse scan. -/
structure ReverseScan where
  output : Text
  iterations : Nat
  truncated : Bool
deriving DecidableEq, Repr

namespace Course

/-- Whether the passes ran out before the end of the text. -/
def isTruncated (c : Course) : Bool :=
  !c.unreached.isEmpty

/-- The result of a course; the pass that was not granted any more is counted. -/
def result (c : Course) : ReverseScan where
  output := cleanup c.outputs.flatten
  iterations := c.outputs.length + (if c.isTruncated then 1 else 0)
  truncated := c.isTruncated

end Course

namespace RuleTable

/-- The reverse scan of a text. -/
def scanReverse (table : RuleTable) (t : Text) : ReverseScan :=
  (table.course t).result

/-- The romanized text of a Bengali one. -/
def toRoman (table : RuleTable) (t : Text) : Text :=
  (table.scanReverse t).output

end RuleTable
end PhoneticBengali
