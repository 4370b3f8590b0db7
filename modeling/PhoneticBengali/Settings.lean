/-
# Settings

Two groups of settings, each with a default for every key it needs:

| group | key | default |
| --- | --- | --- |
| `logging` | `level` | `INFO` |
| | `format` | `pretty` |
| | `file` | none |
| `transliteration` | `default_mode` | `avro` |
| | `rules_file` | none, for the bundled rules |

A settings file is a mapping of groups, each of which is a mapping or counts as
nothing.  Other groups are ignored, other keys are kept, and no value is checked
here.
-/

import PhoneticBengali.Files.Read

namespace PhoneticBengali

/-- The settings of both groups. -/
structure Settings where
  logging : List (Document × Document)
  transliteration : List (Document × Document)
deriving Repr

/-- Why there are no settings. -/
inductive SettingsFault where
  | missing (path : Path)
  | read (fault : ReadFault)
  /-- A file that holds something else than a mapping. -/
  | kind (got : Document)
  /-- A group that is something else than a mapping. -/
  | groupKind (got : Document)
deriving Repr

namespace SettingsFault

/-- What is said about a fault. -/
def message : SettingsFault → Text
  | missing path => "settings file not found: " ++ path.text
  | read fault => fault.message
  | kind got => s!"settings must be a mapping, got {got.kind}"
  | groupKind got => s!"'{got.fullKind}' object is not a mapping"

/-- Whether a run tells of a fault; the others escape. -/
def isTold : SettingsFault → Bool
  | read fault => fault.isTold
  | groupKind _ => false
  | _ => true

end SettingsFault

namespace Settings

/-- The settings when no file says otherwise. -/
def defaults : Settings where
  logging :=
    [(.str "level", .str "INFO"), (.str "format", .str "pretty"), (.str "file", .null)]
  transliteration := [(.str "default_mode", .str "avro"), (.str "rules_file", .null)]

/-- A group with its defaults. -/
def group (entries : List (Document × Document)) (name : Text)
    (defaults : List (Document × Document)) :
    Except SettingsFault (List (Document × Document)) :=
  let given := Document.field entries name
  if given.isBlank then .ok defaults
  else
    match given with
    | .map overrides => .ok (Document.mergeEntries defaults overrides)
    | other => .error (.groupKind other)

/-- The settings that a document describes. -/
def ofDocument : Document → Except SettingsFault Settings
  | .null => .ok defaults
  | .map entries => do
    let logging ← group entries "logging" defaults.logging
    let transliteration ← group entries "transliteration" defaults.transliteration
    return ⟨logging, transliteration⟩
  | other => .error (.kind other)

/-- The settings in the file at a path. -/
def ofFile (reader : YamlReader) (files : FileTree) (path : Path) :
    Except SettingsFault Settings := do
  if !(← (files.leads path).mapError fun fault => .read (.file fault)) then throw (.missing path)
  ofDocument (← (files.readYaml reader path).mapError .read)

/-- Settings as a document. -/
def toDocument (s : Settings) : Document :=
  .map [(.str "logging", .map s.logging), (.str "transliteration", .map s.transliteration)]

/-- The least level of records that are shown. -/
def level (s : Settings) : Document :=
  Document.field s.logging "level"

/-- The form of the lines on records. -/
def format (s : Settings) : Document :=
  Document.field s.logging "format"

/-- The file that records also go to. -/
def logFile (s : Settings) : Document :=
  Document.field s.logging "file"

/-- The mode when none is asked for. -/
def defaultMode (s : Settings) : Document :=
  Document.field s.transliteration "default_mode"

/-- The file of the rules. -/
def rulesFile (s : Settings) : Document :=
  Document.field s.transliteration "rules_file"

end Settings

/-- A value that should be a path and is no text. -/
structure PathFault where
  got : Document
deriving Repr

/-- What is said about such a value. -/
def PathFault.message (f : PathFault) : Text :=
  match f.got with
  | .bytes _ =>
    "argument should be a str object or an os.PathLike object returning str, not <class 'bytes'>"
  | got => s!"expected str, bytes or os.PathLike object, not {got.kind}"

/-- The path that a setting names; none if the setting counts as nothing. -/
def Path.ofSetting (d : Document) : Except PathFault (Option Path) :=
  if d.isBlank then .ok none
  else
    match d with
    | .str s => .ok (some (.ofText s))
    | other => .error ⟨other⟩

end PhoneticBengali
