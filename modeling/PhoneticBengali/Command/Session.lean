/-
# Sessions

A run of the command line changes files and puts text on two outputs.  A session
is how far it has come; a desk is what its commands work with.

A run relies on things that are no part of it: what reads a YAML file, what an
output makes of a line, and what is told of where a fault came from and of a record
whose line is lost.  The standard output takes a line without its terminal sequences,
as UTF-8, and refuses it if it has no form there.  On the error output halves of
surrogate pairs are spelled out, so that it refuses nothing.  Terminal sequences stay
in the lines of the journal.

A command that fails says so twice, in the journal and on the error output, and
ends with exit code 1.  Some faults escape: they end the run with exit code 1 and
nothing is told.
-/

import PhoneticBengali.Files.Read
import PhoneticBengali.Files.Write
import PhoneticBengali.Journal.Basic
import PhoneticBengali.Mode
import PhoneticBengali.Rule.File
import PhoneticBengali.Settings
import PhoneticBengali.Text.Lines
import PhoneticBengali.Text.Terminal

namespace PhoneticBengali

/-- Why an output refuses a line: the kind of the fault, and what is said about
it. -/
structure EchoFault where
  kind : String
  message : Text
deriving DecidableEq, Repr

/-- What an output makes of a line: the text that it takes, if it takes any. -/
abbrev Echo := Text → Except EchoFault Text

/-- The standard output: a line goes out in UTF-8, without its terminal sequences,
or not at all. -/
def Echo.standard : Echo := fun line =>
  let t := line.withoutSequences ++ "\n"
  match Utf8.encodeFault? t with
  | none => .ok t
  | some fault => .error ⟨"UnicodeEncodeError", fault.message⟩

/-- Why a command fails. -/
inductive CommandFault where
  | rulesPath (fault : PathFault)
  | rules (fault : RuleFileFault)
  | read (fault : ReadFault)
  /-- A mode that is not supported and cannot be shown. -/
  | mode (fault : NumeralFault)
  | write (fault : WriteFault)
  | echo (fault : EchoFault)
deriving Repr

namespace CommandFault

/-- What is said about a fault. -/
def message : CommandFault → Text
  | rulesPath fault => fault.message
  | rules fault => fault.message
  | read fault => fault.message
  | mode fault => fault.message
  | write fault => fault.message
  | echo fault => fault.message

end CommandFault

/-- What a run relies on: the reader of YAML files, the standard output, the time
that log lines show, the trace of a fault, and the lines that are told of a record whose
own line is lost. -/
structure Platform where
  reader : YamlReader := .standard
  echo : Echo := .standard
  stamp : Text
  trace : CommandFault → Text
  lost : Record → List Text

/-- What a run starts from: the files and the standard input. -/
structure Host where
  files : FileTree
  input : Utf8.Octets := []
  platform : Platform

/-- How far a run has come: the files, and what was put on the outputs. -/
structure Session where
  files : FileTree
  output : Text := []
  errors : Text := []
deriving DecidableEq, Repr

/-- A fault that a run does not tell of. -/
inductive Escape where
  /-- A word that no file can be named by. -/
  | word (fault : FileFault)
  | settings (fault : SettingsFault)
  | logPath (fault : PathFault)
  | journal (fault : JournalFault)
  /-- A line of a report that the output refuses. -/
  | echo (fault : EchoFault)
deriving Repr

/-- How a run ends. -/
structure Outcome where
  exit : Nat
  session : Session
  escaped : Option Escape := none
deriving Repr

/-- What the commands work with: the journal, the settings, the standard input and
what the run relies on. -/
structure Desk where
  journal : Journal
  settings : Settings
  input : Utf8.Octets
  platform : Platform

namespace Session

/-- Lines put on the standard output, up to the first that it refuses. -/
def say (s : Session) (echo : Echo) : List Text → Session × Option EchoFault
  | [] => (s, none)
  | line :: rest =>
    match echo line with
    | .ok t => say { s with output := s.output ++ t } echo rest
    | .error fault => (s, some fault)

/-- A text put on the error output. -/
def put (s : Session) (t : Text) : Session :=
  { s with errors := s.errors ++ t.withHalvesSpelled }

/-- A line put on the error output. -/
def complain (s : Session) (line : Text) : Session :=
  s.put (line.withoutSequences ++ "\n")

/-- Records written to the journal. -/
def note (s : Session) (d : Desk) (records : List Record) : Session :=
  { s with files := d.journal.filesAfter d.platform.stamp s.files records }.put
    (d.journal.errorText d.platform.stamp d.platform.lost records)

/-- The record of a fault, as the failure of an activity. -/
def failure (d : Desk) (activity : String) (fault : CommandFault) : Record :=
  { Record.plain .error packageSource (activity ++ " failed: " ++ fault.message) with
    trace := some (d.platform.trace fault) }

/-- The end of a command that fails: the fault goes to the journal, as the
failure of an activity, and to the error output. -/
def fail (s : Session) (d : Desk) (activity : String) (fault : CommandFault) : Outcome :=
  ⟨1, (s.note d [failure d activity fault]).complain ("Error: " ++ fault.message), none⟩

end Session

namespace Desk

/-- The rules that the settings name. -/
def tables (d : Desk) (files : FileTree) : Attempt CommandFault Tables :=
  match Path.ofSetting d.settings.rulesFile with
  | .error fault => .fail (.rulesPath fault)
  | .ok none =>
    let summary := s!"Loaded {Bundled.table.length} rules"
    ⟨.ok {}, [Record.plain .debug Rule.source summary]⟩
  | .ok (some path) =>
    (RuleTable.ofFile d.platform.reader files path).map fun table =>
      (table.mapError CommandFault.rules).map fun t => ⟨t, t.reverse⟩

end Desk
end PhoneticBengali
