/-
# Runs

What a run of the command line does, from the words to the exit code:

| exit code | when |
| --- | --- |
| 0 | all is done |
| 1 | a fault, told on the error output or escaped; or rules that can never match |
| 2 | a mistake in usage |

The settings are read and the journal is opened before the words of the command
are looked at, so a fault of theirs wins over a mistake in those words.
-/

import PhoneticBengali.Command.Convert
import PhoneticBengali.Command.Invocation
import PhoneticBengali.Command.Rules

namespace PhoneticBengali
namespace Desk

/-- A command. -/
def run (d : Desk) (s : Session) : Command → Outcome
  | .convert mode text input output => d.convert s mode text input output
  | .check => d.check s
  | .exportReverse output => d.exportReverse s output

end Desk

namespace Refusal

/-- What is said to a request for help: the words of each command. -/
def helpText : Text :=
  Text.unlines ["[-v] [--settings FILE] convert [-m MODE] [-i FILE] [-o FILE] [TEXT]",
    "[-v] [--settings FILE] rules check", "[-v] [--settings FILE] rules export-reverse OUTPUT"]

/-- The end of a run without a command. -/
def outcome (files : FileTree) : Refusal → Outcome
  | usage => ⟨2, ⟨files, [], []⟩, none⟩
  | help => ⟨0, ⟨files, helpText, []⟩, none⟩
  | nameless fault => ⟨1, ⟨files, [], []⟩, some (.word fault)⟩

end Refusal

namespace Invocation

/-- The settings that an invocation asks for. -/
def loadSettings (i : Invocation) (reader : YamlReader) (files : FileTree) :
    Except SettingsFault Settings :=
  match i.settings with
  | none => .ok Settings.defaults
  | some path => Settings.ofFile reader files path

/-- The journal that an invocation and its settings ask for. -/
def startJournal (i : Invocation) (settings : Settings) (files : FileTree) :
    Change Escape Journal :=
  match Path.ofSetting settings.logFile with
  | .error fault => ⟨.error (.logPath fault), files⟩
  | .ok path =>
    let level := if i.verbose then .str "DEBUG" else settings.level
    let change := Journal.start files level settings.format path
    ⟨change.result.mapError .journal, change.files⟩

/-- A run of an invocation. -/
def run (i : Invocation) (host : Host) : Outcome :=
  let start : Session := { files := host.files }
  match i.loadSettings host.platform.reader host.files with
  | .error fault =>
    if fault.isTold then ⟨1, start.complain ("Error: " ++ fault.message), none⟩
    else ⟨1, start, some (.settings fault)⟩
  | .ok settings =>
    match i.startJournal settings host.files with
    | ⟨.error escape, files⟩ => ⟨1, { start with files }, some escape⟩
    | ⟨.ok journal, files⟩ =>
      match Command.ofInvocation files i with
      | .error refusal => refusal.outcome files
      | .ok command =>
        let desk : Desk := ⟨journal, settings, host.input, host.platform⟩
        desk.run { start with files } command

end Invocation

/-- A run of the command line. -/
def Host.run (host : Host) (words : List Text) : Outcome :=
  match Invocation.ofWords host.files words with
  | .error refusal => refusal.outcome host.files
  | .ok i => i.run host

end PhoneticBengali
