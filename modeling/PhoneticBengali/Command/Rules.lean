/-
# Commands on rules

| command | does |
| --- | --- |
| `rules check` | tells of the rules that can never match; exit code 1 if there are any |
| `rules export-reverse` | writes the reverse table to a file as JSON |

A line of a report that the output refuses is a fault that escapes.
-/

import PhoneticBengali.Command.Session
import PhoneticBengali.Rule.Order

namespace PhoneticBengali
namespace Desk

/-- The lines that tell of conflicts. -/
def reportLines (report : OrderReport) : List Text :=
  (report.duplicates.map fun c =>
    "  duplicate: #" ++ Numeral.ofNat c.index ++ " '" ++ c.find ++ "' (first at #" ++
      Numeral.ofNat c.earlierIndex ++ ")") ++
  (report.shadowed.map fun c =>
    "  shadowed:  #" ++ Numeral.ofNat c.index ++ " '" ++ c.find ++ "' by #" ++
      Numeral.ofNat c.earlierIndex ++ " '" ++ c.earlierFind ++ "'")

/-- The line that sums up a report. -/
def verdict (report : OrderReport) : Text :=
  if report.isValid then "OK: " ++ Numeral.ofNat report.total ++ " rules, order is consistent"
  else "FAILED: " ++ Numeral.ofNat report.count ++ " unreachable rules"

/-- The command `rules check`. -/
def check (d : Desk) (s : Session) : Outcome :=
  let tables := d.tables s.files
  let s := s.note d tables.records
  match tables.value with
  | .error fault => s.fail d "Rule check" fault
  | .ok tables =>
    let report := tables.forward.checkOrder
    let s := s.note d [report.record packageSource]
    match s.say d.platform.echo (reportLines report ++ [verdict report]) with
    | (s, some fault) => ⟨1, s, some (.echo fault)⟩
    | (s, none) => ⟨if report.isValid then 0 else 1, s, none⟩

/-- A reverse table as a document. -/
def reverseDocument (table : RuleTable) : Document :=
  .list (table.map fun r => .map [(.str "find", .str r.find), (.str "replace", .str r.replace)])

/-- The line that tells of an exported table. -/
def exportLine (table : RuleTable) (output : Path) : Text :=
  "Reverse table (" ++ Numeral.ofNat table.length ++ " rules) written to " ++ output.text

/-- The desk after a file was moved onto a path: what a journal held open there is gone. -/
def afterMove (d : Desk) (files : FileTree) (path : Path) : Desk :=
  if d.journal.file = (files.locate path).toOption then
    { d with journal := { d.journal with file := none } }
  else d

/-- The command `rules export-reverse`. -/
def exportReverse (d : Desk) (s : Session) (output : Path) : Outcome :=
  let tables := d.tables s.files
  let s := s.note d tables.records
  match tables.value with
  | .error fault => s.fail d "Export" fault
  | .ok tables =>
    let table := tables.reverse
    match s.files.writeJson output (.int 2) (reverseDocument table) with
    | ⟨.error fault, files⟩ => { s with files }.fail d "Export" (.write fault)
    | ⟨.ok (), files⟩ =>
      match { s with files }.say d.platform.echo [exportLine table output] with
      | (s, none) => ⟨0, s, none⟩
      | (s, some fault) => s.fail (d.afterMove files output) "Export" (.echo fault)

end Desk
end PhoneticBengali
