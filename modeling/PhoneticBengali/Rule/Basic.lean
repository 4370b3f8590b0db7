/-
# Rules

A rule turns a literal, its `find`, into its `replace`.  Alternatives override
that output where the characters around the match meet all of their conditions;
the first one that applies wins.

A condition looks at one side of the match:

| scope | holds, if not negated, when |
| --- | --- |
| `letter k` | the neighbouring character is of class `k`; at a text edge, `k` is punctuation |
| `exact` | the text on that side continues with the literal |
| `other` | never, negated or not |

An exact condition without a literal, or with an empty one, never holds either,
negated or not.
-/

import PhoneticBengali.Roman

namespace PhoneticBengali

/-- A side of a match. -/
inductive Side where
  | before
  | after
deriving DecidableEq, Repr

/-- What a condition tests for. -/
inductive Scope where
  | letter (k : LetterClass)
  | exact
  | other (name : Text)
deriving DecidableEq, Repr

/-- A test on the text around a match. -/
structure Condition where
  side : Side
  scope : Scope
  negate : Bool := false
  literal : Option Text := none
deriving DecidableEq, Repr

/-- An output that overrides the default one when all conditions hold. -/
structure Alternative where
  conditions : List Condition
  replace : Text
deriving DecidableEq, Repr

/-- A literal, its default output and the overrides of that output. -/
structure Rule where
  find : Text
  replace : Text
  alternatives : List Alternative := []
deriving DecidableEq, Repr

/-- Rules in the order in which they are tried. -/
abbrev RuleTable := List Rule

namespace Side

/-- The name of a side in rule files. -/
def name : Side → Text
  | before => "prefix"
  | after => "suffix"

/-- The side of that name. -/
def ofName? (s : Text) : Option Side :=
  if s = "prefix" then some before else if s = "suffix" then some after else none

/-- The part of the surroundings on a side.  `left` is the text before the match,
nearest character first, and `right` the text after it. -/
def of (left right : Text) : Side → Text
  | before => left
  | after => right

end Side

namespace Scope

/-- The name of a scope in rule files. -/
def name : Scope → Text
  | letter .vowel => "vowel"
  | letter .consonant => "consonant"
  | letter .punctuation => "punctuation"
  | exact => "exact"
  | other s => s

/-- The scope of that name, `other` for a name that is none of the four. -/
def ofName (s : Text) : Scope :=
  if s = "vowel" then letter .vowel
  else if s = "consonant" then letter .consonant
  else if s = "punctuation" then letter .punctuation
  else if s = "exact" then exact
  else other s

end Scope

namespace LetterClass

/-- The class of the nearest character on a side; a text edge counts as
punctuation. -/
def ofNeighbour : Text → LetterClass
  | [] => punctuation
  | c :: _ => of c

end LetterClass

namespace Condition

/-- The literal of an exact condition as it is met when walking away from the
match. -/
def outward (c : Condition) (literal : Text) : Text :=
  match c.side with
  | .before => literal.reverse
  | .after => literal

/-- Whether a condition holds for a match between `left`, nearest character
first, and `right`. -/
def holds (c : Condition) (left right : Text) : Bool :=
  match c.scope, c.literal with
  | .exact, some (x :: xs) => ((c.outward (x :: xs)).isPrefixOf (c.side.of left right)) != c.negate
  | .exact, _ => false
  | .letter k, _ => (LetterClass.ofNeighbour (c.side.of left right) == k) != c.negate
  | .other _, _ => false

end Condition

namespace Alternative

/-- Whether every condition of an alternative holds. -/
def applies (a : Alternative) (left right : Text) : Bool :=
  a.conditions.all (·.holds left right)

end Alternative

namespace Rule

/-- Whether the literal stands at the beginning of `rest`. -/
def matchesAt (r : Rule) (rest : Text) : Bool :=
  r.find.isPrefixOf rest

/-- The output for a match between `left` and `right`: that of the first
alternative that applies, or the default. -/
def output (r : Rule) (left right : Text) : Text :=
  match r.alternatives.find? (·.applies left right) with
  | some a => a.replace
  | none => r.replace

end Rule

namespace RuleTable

/-- The first rule in table order whose literal stands at the beginning of
`rest`. -/
def first? (table : RuleTable) (rest : Text) : Option Rule :=
  table.find? (·.matchesAt rest)

end RuleTable
end PhoneticBengali
