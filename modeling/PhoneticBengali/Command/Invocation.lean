/-
# Invocations

What a command line asks for.

| words | asks for |
| --- | --- |
| `convert [TEXT]` | a text, a file or the standard input transliterated |
| `rules check` | a check of the order of the rules |
| `rules export-reverse OUTPUT` | the reverse table as JSON |

In front stand the options of all commands, `--verbose` and `--settings`.  A
command line that has no meaning, or names a directory where a file is expected,
is a mistake in usage.  A word that cannot be the name of a file, where a file is
expected, is a fault that escapes.
-/

import PhoneticBengali.Command.Arguments
import PhoneticBengali.Files.Tree

namespace PhoneticBengali

/-- Why no command is run. -/
inductive Refusal where
  /-- A mistake in usage. -/
  | usage
  /-- A request for help. -/
  | help
  /-- A word that no file can be named by. -/
  | nameless (fault : FileFault)
deriving DecidableEq, Repr

/-- The first word of a command. -/
inductive CommandGroup where
  | convert
  | rules
deriving DecidableEq, Repr

/-- The options of all commands, and what follows them. -/
structure Invocation where
  verbose : Bool
  settings : Option Path
  group : CommandGroup
  words : List Text
deriving DecidableEq, Repr

/-- A command with its options. -/
inductive Command where
  | convert (mode : Option Text) (text : Option Text) (input output : Option Path)
  | check
  | exportReverse (output : Path)
deriving DecidableEq, Repr

namespace Refusal

/-- The option that asks for help. -/
def helpForm : Option.Form :=
  ⟨"help", none, false⟩

/-- The words of a command told apart, unless they have no meaning or ask for
help. -/
def arguments (forms : List Option.Form) (mixed : Bool) (words : List Text) :
    Except Refusal Arguments :=
  match Arguments.ofWords (helpForm :: forms) mixed words with
  | none => .error .usage
  | some a => if a.has "help" then .error .help else .ok a

/-- A text as the name of a file. -/
def named (spelling : Text) : Except Refusal Path :=
  match FileTree.nameFault? [spelling] with
  | some cause => .error (.nameless ⟨cause, spelling⟩)
  | none => .ok (.ofText spelling)

/-- The path of a file that may be missing. -/
def filePath (files : FileTree) (spelling : Text) : Except Refusal Path := do
  let path ← named spelling
  match files.findSpelt spelling with
  | .ok .directory => throw .usage
  | _ => return path

/-- The path of a file that must be there. -/
def presentPath (files : FileTree) (spelling : Text) : Except Refusal Path := do
  let path ← named spelling
  match files.findSpelt spelling with
  | .ok (.file _) => return path
  | _ => throw .usage

end Refusal

namespace Invocation

/-- The options of all commands. -/
def forms : List Option.Form :=
  [⟨"verbose", some 'v', false⟩, ⟨"settings", none, true⟩]

/-- What a command line asks for, up to the words of the command. -/
def ofWords (files : FileTree) (words : List Text) : Except Refusal Invocation := do
  let a ← Refusal.arguments forms false words
  let settings ← (a.value? "settings").mapM (Refusal.filePath files)
  match a.operands with
  | [] => throw .usage
  | name :: rest =>
    if name = "convert" then return ⟨a.has "verbose", settings, .convert, rest⟩
    else if name = "rules" then return ⟨a.has "verbose", settings, .rules, rest⟩
    else throw .usage

end Invocation

namespace Command

/-- The options of `convert`. -/
def convertForms : List Option.Form :=
  [⟨"mode", some 'm', true⟩, ⟨"input", some 'i', true⟩, ⟨"output", some 'o', true⟩]

/-- The words after `convert`. -/
def ofConvertWords (files : FileTree) (words : List Text) : Except Refusal Command := do
  let a ← Refusal.arguments convertForms true words
  let input ← (a.value? "input").mapM (Refusal.presentPath files)
  let output ← (a.value? "output").mapM (Refusal.filePath files)
  match a.operands with
  | [] => return .convert (a.value? "mode") none input output
  | [text] => return .convert (a.value? "mode") (some text) input output
  | _ => throw .usage

/-- The words after `rules`. -/
def ofRulesWords (files : FileTree) (words : List Text) : Except Refusal Command := do
  let a ← Refusal.arguments [] false words
  match a.operands with
  | [] => throw .usage
  | name :: rest =>
    if name = "check" then
      let b ← Refusal.arguments [] true rest
      if b.operands.isEmpty then return .check
      throw .usage
    else if name = "export-reverse" then
      let b ← Refusal.arguments [] true rest
      match b.operands with
      | [output] => return .exportReverse (← Refusal.filePath files output)
      | _ => throw .usage
    else throw .usage

/-- The command that an invocation names. -/
def ofInvocation (files : FileTree) (i : Invocation) : Except Refusal Command :=
  match i.group with
  | .convert => ofConvertWords files i.words
  | .rules => ofRulesWords files i.words

end Command
end PhoneticBengali
