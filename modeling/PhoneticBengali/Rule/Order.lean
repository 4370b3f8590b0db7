/-
# The order of a table

A rule never matches when an earlier one always matches first: one with an equal
literal, or one whose literal it begins with.  The check goes through a table
once and remembers where each literal first stood.

| finding | names |
| --- | --- |
| duplicate | the rule and the first one with the same literal |
| shadowed | the rule and the first one with the shortest literal that it begins with |

A duplicate is not also looked at for shadowing.
-/

import PhoneticBengali.Journal.Record
import PhoneticBengali.Rule.Basic

namespace PhoneticBengali

/-- A rule that cannot match, and the earlier one that is in its way. -/
structure Conflict where
  index : Nat
  find : Text
  earlierIndex : Nat
  earlierFind : Text
deriving DecidableEq, Repr

/-- What a check of a table's order found. -/
structure OrderReport where
  total : Nat
  shadowed : List Conflict
  duplicates : List Conflict
deriving DecidableEq, Repr

namespace OrderReport

/-- Whether every rule of the table can match. -/
def isValid (r : OrderReport) : Bool :=
  r.shadowed.isEmpty && r.duplicates.isEmpty

/-- The number of rules that cannot match. -/
def count (r : OrderReport) : Nat :=
  r.shadowed.length + r.duplicates.length

/-- The record that sums up a check, made by `source`. -/
def record (source : Text) (r : OrderReport) : Record where
  level := .info
  source := source
  message :=
    s!"Checked {r.total} rules: {r.shadowed.length} shadowed, {r.duplicates.length} duplicate"

end OrderReport

namespace RuleTable

/-- The beginnings of a text, shortest first, without the empty one and the whole. -/
def properBeginnings (t : Text) : List Text :=
  (List.range' 1 (t.length - 1)).map (t.take ·)

/-- What the rules from `index` on bring up.  `seen` tells where each literal
before them first stood. -/
def conflictsFrom (seen : List (Text × Nat)) (index : Nat) :
    RuleTable → List Conflict × List Conflict
  | [] => ([], [])
  | r :: rest =>
    match seen.lookup r.find with
    | some earlier =>
      let (shadowed, duplicates) := conflictsFrom seen (index + 1) rest
      (shadowed, ⟨index, r.find, earlier, r.find⟩ :: duplicates)
    | none =>
      let (shadowed, duplicates) := conflictsFrom ((r.find, index) :: seen) (index + 1) rest
      let found := (properBeginnings r.find).findSome? fun u =>
        (seen.lookup u).map fun earlier => (⟨index, r.find, earlier, u⟩ : Conflict)
      (found.toList ++ shadowed, duplicates)

/-- The check of a table's order. -/
def checkOrder (table : RuleTable) : OrderReport :=
  let (shadowed, duplicates) := conflictsFrom [] 0 table
  ⟨table.length, shadowed, duplicates⟩

/-- The source of the record on a check that is made on its own. -/
def orderSource : Text :=
  "banglit.qc.rule_order"

end RuleTable
end PhoneticBengali
