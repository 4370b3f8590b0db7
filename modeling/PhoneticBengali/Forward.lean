/-
# From romanization to Bengali

A text is first brought into the case of the rules, and then cut from left to
right into segments.  At each cut the first rule in table order whose literal
stands there takes its literal as a segment; where none does, a single character
is one.  Each segment yields an output:

| segment | output |
| --- | --- |
| literal of a rule | that of its first alternative that applies, or the default |
| single character | the character itself |

and the Bengali text is their concatenation.  Conditions see the text around the
segment, never what has been put out.
-/

import PhoneticBengali.Rule.Basic

namespace PhoneticBengali

/-- A segment of a text in its surroundings: `left` is the text before it,
nearest character first, and `right` the text after it. -/
structure Segment where
  left : Text
  source : Text
  right : Text
  rule : Option Rule
deriving DecidableEq, Repr

namespace Segment

/-- What a segment is rewritten to. -/
def output (s : Segment) : Text :=
  match s.rule with
  | some r => r.output s.left s.right
  | none => s.source

end Segment

namespace RuleTable

/-- The segments of `rest`.  Its first `skip` characters belong to a segment
already cut, and `left` is the text before it, nearest character first.  A rule
with an empty literal takes one character. -/
def segmentsFrom (table : RuleTable) : (left : Text) → (skip : Nat) → (rest : Text) → List Segment
  | _, _, [] => []
  | left, skip + 1, c :: rest => segmentsFrom table (c :: left) skip rest
  | left, 0, c :: rest =>
    match table.first? (c :: rest) with
    | some r =>
      ⟨left, r.find, (c :: rest).drop r.find.length, some r⟩ ::
        segmentsFrom table (c :: left) (r.find.length - 1) rest
    | none => ⟨left, [c], rest, none⟩ :: segmentsFrom table (c :: left) 0 rest

/-- The segments of a text in the case of the rules. -/
def segments (table : RuleTable) (t : Text) : List Segment :=
  segmentsFrom table [] 0 t

/-- The Bengali text of a romanized one. -/
def toBengali (table : RuleTable) (t : Text) : Text :=
  (segments table (fixCase t)).flatMap Segment.output

end RuleTable
end PhoneticBengali
