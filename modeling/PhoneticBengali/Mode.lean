/-
# Modes

A mode names a direction of transliteration.

| name | mode | does |
| --- | --- | --- |
| `avro`, `forward` | `bengali` | romanization to Bengali |
| `orva`, `reverse` | `roman` | Bengali back to the romanization |
| `banglish` | `banglish` | nothing yet |
| `lishbang` | `lishbang` | nothing yet |

Names are compared in lower case.  A mode that is not supported, or not there
yet, leaves a text as it is, and a warning says so; the warning shows what was asked
for, and the attempt fails if that cannot be shown.
-/

import PhoneticBengali.Bundled
import PhoneticBengali.Document.Inline
import PhoneticBengali.Forward
import PhoneticBengali.Journal.Record
import PhoneticBengali.Reverse

namespace PhoneticBengali

/-- A direction of transliteration. -/
inductive Mode where
  | bengali
  | roman
  | banglish
  | lishbang
deriving DecidableEq, Repr

namespace Mode

/-- The name of a mode. -/
def name : Mode → Text
  | bengali => "avro"
  | roman => "orva"
  | banglish => "banglish"
  | lishbang => "lishbang"

/-- All modes, in the order in which messages list them. -/
def all : List Mode :=
  [bengali, roman, banglish, lishbang]

/-- The names of all modes and their aliases. -/
def names : List (Text × Mode) :=
  ("forward", bengali) :: ("reverse", roman) :: all.map fun m => (m.name, m)

/-- The mode of a name in any case. -/
def ofName? (t : Text) : Option Mode :=
  names.lookup (lowerCase t)

/-- The mode that a document names. -/
def ofDocument? : Document → Option Mode
  | .str s => ofName? s
  | _ => none

/-- The source of the records on modes. -/
def source : Text :=
  "banglit.transliteration"

/-- The warning about a mode that is not supported. -/
def unsupported (shown : Text) : Record :=
  let available := (", " : Text).intercalate (all.map fun m => "'" ++ m.name ++ "'")
  Record.plain .warning source
    ("Unsupported mode " ++ shown ++ ". Available modes are: " ++ available)

/-- The warning about a mode that is not there yet. -/
def unfinished (name : String) : Record :=
  Record.plain .warning source s!"{name} transliteration is not implemented yet"

end Mode

/-- The rules for the two directions. -/
structure Tables where
  forward : RuleTable := Bundled.table
  reverse : RuleTable := Bundled.reverseTable

namespace RuleTable

/-- The source of the records on reverse scans. -/
def reverseSource : Text :=
  "banglit.engine.reverse"

/-- The complaint about a reverse scan of `t` that was cut off, if it was. -/
def reverseRecords (table : RuleTable) (t : Text) : List Record :=
  let course := table.course t
  let offset := t.length - course.unreached.length
  let passes := 2 * t.length
  let message := s!"Reverse scan exceeded {passes} iterations at offset {offset}, " ++
    s!"dropping {course.unreached.length} unscanned characters"
  if course.isTruncated then [Record.plain .error reverseSource message] else []

end RuleTable

namespace Tables

/-- A text transliterated in a mode. -/
def convert (tables : Tables) (mode : Mode) (t : Text) : Noted Text :=
  match mode with
  | .bengali => ⟨tables.forward.toBengali t, []⟩
  | .roman => ⟨tables.reverse.toRoman t, tables.reverse.reverseRecords t⟩
  | .banglish => ⟨t, [Mode.unfinished "Banglish"]⟩
  | .lishbang => ⟨t, [Mode.unfinished "Lishbang"]⟩

/-- A text transliterated in the mode that a document names. -/
def transliterate (tables : Tables) (mode : Document) (t : Text) : Attempt NumeralFault Text :=
  match Mode.ofDocument? mode with
  | some m => (tables.convert m t).map .ok
  | none =>
    match mode.shown with
    | .error fault => .fail fault
    | .ok shown => ⟨.ok t, [Mode.unsupported shown]⟩

end Tables
end PhoneticBengali
