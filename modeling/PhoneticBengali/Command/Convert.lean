/-
# Conversion

The command `convert` takes lines from one of three places, and puts the
converted lines into one of two:

| from | to |
| --- | --- |
| the text among the arguments | the file that `--output` names |
| the file that `--input` names | the standard output |
| the standard input, if there is neither | |

A text and an input file together are a fault.  A line that the standard output
refuses is one too; the lines before it have been put out.
-/

import PhoneticBengali.Command.Session
import PhoneticBengali.Text.Lines

namespace PhoneticBengali
namespace Desk

/-- The mode of a conversion: the one asked for, unless it is none or empty. -/
def mode (d : Desk) : Option Text → Document
  | some (c :: t) => .str (c :: t)
  | _ => d.settings.defaultMode

/-- The lines to convert: of the text given, of a file, or of the standard input.
A text without a line is one empty line. -/
def lines (d : Desk) (files : FileTree) (text : Option Text) (input : Option Path) :
    Except CommandFault (List Text) :=
  match text, input with
  | some t, _ =>
    let lines := t.splitLines
    .ok (if lines.isEmpty then [[]] else lines)
  | none, some path => ((files.readText path).mapError .read).map Text.splitLines
  | none, none => ((FileTree.textOf d.input).mapError .read).map Text.splitLines

/-- Converted lines put on the standard output, or into a file. -/
def deliver (d : Desk) (s : Session) (results : List Text) : Option Path → Outcome
  | none =>
    match s.say d.platform.echo results with
    | (s, none) => ⟨0, s, none⟩
    | (s, some fault) => s.fail d "Conversion" (.echo fault)
  | some path =>
    match s.files.writeLines path (results.map Document.str) with
    | ⟨.error fault, files⟩ => { s with files }.fail d "Conversion" (.write fault)
    | ⟨.ok count, files⟩ =>
      let line := "Wrote " ++ Numeral.ofNat count ++ " lines to " ++ path.text
      ⟨0, { s with files }.complain line, none⟩

/-- Lines converted in a mode, and put where they should go. -/
def convertLines (d : Desk) (s : Session) (tables : Tables) (mode : Document)
    (lines : List Text) (output : Option Path) : Outcome :=
  let results := Attempt.all (lines.map (tables.transliterate mode))
  let s := s.note d results.records
  match results.value with
  | .error fault => s.fail d "Conversion" (.mode fault)
  | .ok results =>
    let fields := [(("mode" : Text), mode), ("lines", Document.int results.length)]
    let summary := { Record.plain .debug packageSource "Transliterated input" with fields }
    d.deliver (s.note d [summary]) results output

/-- The command `convert`. -/
def convert (d : Desk) (s : Session) (mode text : Option Text) (input output : Option Path) :
    Outcome :=
  if text.isSome ∧ input.isSome then
    ⟨1, s.complain "Error: give either TEXT or --input, not both", none⟩
  else
    let tables := d.tables s.files
    let s := s.note d tables.records
    match tables.value with
    | .error fault => s.fail d "Conversion" fault
    | .ok tables =>
      match d.lines s.files text input with
      | .error fault => s.fail d "Conversion" fault
      | .ok lines => d.convertLines s tables (d.mode mode) lines output

end Desk
end PhoneticBengali
