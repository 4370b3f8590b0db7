/-
# Journals

A journal takes the records from a level on.  Their lines go to the console in
the form asked for, and to a file, if there is one, always as JSON in UTF-8.

| level asked for | takes records from |
| --- | --- |
| `DEBUG`, `INFO`, `ERROR` | that level on |
| `WARNING`, `WARN` | `warning` on |
| `CRITICAL`, `FATAL` | `critical` on |
| `NOTSET` | `warning` on |

The level may be in lower case.
-/

import PhoneticBengali.Files.Write
import PhoneticBengali.Journal.Line
import PhoneticBengali.Text.LowerCase
import PhoneticBengali.Text.UpperCase

namespace PhoneticBengali

/-- Where the lines on records go. -/
structure Journal where
  least : Level
  form : LineForm
  file : Option Place
deriving DecidableEq, Repr

/-- Why a journal cannot be opened. -/
inductive JournalFault where
  | levelKind (got : Document)
  | unknownLevel (name : Text)
  /-- The name of the usual layout of lines, asked for as a level. -/
  | layoutName
  /-- The name of the table of layouts, asked for as a level. -/
  | layoutTable
  | file (fault : FileFault)
deriving Repr

namespace JournalFault

/-- The table of the layouts of lines, as messages show it. -/
def layouts : String :=
  "\x7b'%': (<class 'logging.PercentStyle'>, '%(levelname)s:%(name)s:%(message)s'), " ++
    "'\x7b': (<class 'logging.StrFormatStyle'>, " ++
    "'\x7blevelname\x7d:\x7bname\x7d:\x7bmessage\x7d'), " ++
    "'$': (<class 'logging.StringTemplateStyle'>, " ++
    "'$\x7blevelname\x7d:$\x7bname\x7d:$\x7bmessage\x7d')\x7d"

/-- What is said about a fault. -/
def message : JournalFault → Text
  | levelKind got => s!"'{got.fullKind}' object has no attribute 'upper'"
  | unknownLevel name => "module 'logging' has no attribute '" ++ name ++ "'"
  | layoutName => "Unknown level: '%(levelname)s:%(name)s:%(message)s'"
  | layoutTable => "Level not an integer or a valid string: " ++ layouts
  | file fault => fault.message

end JournalFault

namespace Level

/-- The levels that can be asked for, and the least level of the records taken. -/
def thresholds : List (Text × Level) :=
  [("DEBUG", debug), ("INFO", info), ("WARNING", warning), ("WARN", warning), ("ERROR", error),
    ("CRITICAL", critical), ("FATAL", critical), ("NOTSET", warning)]

/-- The least level of the records taken when a level is asked for. -/
def ofSetting : Document → Except JournalFault Level
  | .str s =>
    let name := upperCase s
    match thresholds.lookup name with
    | some l => .ok l
    | none =>
      if name = "BASIC_FORMAT" then .error .layoutName
      else if name = "_STYLES" then .error .layoutTable
      else .error (.unknownLevel name)
  | other => .error (.levelKind other)

end Level

namespace Journal

/-- A journal opened: the directories of its file are made, and the file itself
if there is none. -/
def start (files : FileTree) (level format : Document) (path : Option Path) :
    Change JournalFault Journal :=
  match Level.ofSetting level, path with
  | .error fault, _ => ⟨.error fault, files⟩
  | .ok least, none => ⟨.ok ⟨least, .ofSetting format, none⟩, files⟩
  | .ok least, some path =>
    match files.ensureParent path with
    | ⟨.error fault, files⟩ => ⟨.error (.file fault), files⟩
    | ⟨.ok (), files⟩ =>
      match files.openAppending path with
      | .error fault => ⟨.error (.file fault), files⟩
      | .ok (place, files) => ⟨.ok ⟨least, .ofSetting format, some place⟩, files⟩

/-- The records that a journal takes. -/
def taken (j : Journal) (records : List Record) : List Record :=
  records.filter fun r => j.least.rank ≤ r.level.rank

/-- The lines that records put on the console. -/
def consoleText (j : Journal) (stamp : Text) (records : List Record) : Text :=
  (j.taken records).flatMap (·.line j.form stamp)

/-- What records put on the error output, where that is the console: their lines, and the
lines of `lost` about a record whose own line has no form, on the console or in the file. -/
def errorText (j : Journal) (stamp : Text) (lost : Record → List Text) (records : List Record) :
    Text :=
  (j.taken records).flatMap fun r =>
    let line := r.line j.form stamp
    let report := Text.unlines (lost r)
    let missing := j.file.isSome && (r.fileLine stamp).isEmpty
    (if line.isEmpty then report else line) ++ (if missing then report else [])

/-- The lines that records put into the file. -/
def fileText (j : Journal) (stamp : Text) (records : List Record) : Text :=
  (j.taken records).flatMap (·.fileLine stamp)

/-- The files after records are written to a journal. -/
def filesAfter (j : Journal) (stamp : Text) (files : FileTree) (records : List Record) :
    FileTree :=
  match j.file with
  | some place => files.append place (j.fileText stamp records)
  | none => files

end Journal
end PhoneticBengali
