/-
# The command line

A run is computed from what it may read, and takes effect afterwards: the files
that the arguments and the settings name are looked up, the run is worked out,
the files that it changed are written, and its two outputs are printed.
-/

import PhoneticBengali.Command.Run
import Std.Time.Format

namespace PhoneticBengali
namespace CommandLine

/-- A text as a string, none if it is none in UTF-8. -/
def spelt? (t : Text) : Option String :=
  String.fromUTF8? ⟨(Utf8.encode t).toArray⟩

/-- What stands under a name. -/
def lookUp (name : Text) : IO (Option Entry) := do
  let some name := spelt? name | return none
  try
    return some (.file (← IO.FS.readBinFile name).data.toList)
  catch
    | .inappropriateType _ code _ => return if code = 21 then some .directory else none
    | _ => return none

/-- The files with what stands on the way to a path, and at it. -/
def snapshot (files : FileTree) (path : Path) : IO FileTree := do
  let mut files := files
  for count in List.range path.names.length do
    let part : Path := ⟨path.names.take (count + 1)⟩
    if let .ok place := files.locate part then
      if let some entry ← lookUp part.text then
        unless place.isTop do files := files.set place entry
  return files

/-- The texts in an argument that may be a path. -/
def spellings (word : Text) : List Text :=
  let value : Text := (word.dropWhile fun (c : CodePoint) => c ≠ '=').drop 1
  [word, word.drop 2, value].filter fun (t : Text) => !t.isEmpty

/-- The paths that the settings name. -/
def settingPaths (files : FileTree) (words : List Text) : List Path :=
  match Invocation.ofWords files words with
  | .error _ => []
  | .ok i =>
    match i.loadSettings .standard files with
    | .error _ => []
    | .ok settings => [settings.rulesFile, settings.logFile].filterMap fun d =>
      match Path.ofSetting d with
      | .ok path => path
      | .error _ => none

/-- Whether a command line reads the standard input. -/
def readsInput (files : FileTree) (words : List Text) : Bool :=
  match Invocation.ofWords files words with
  | .error _ => false
  | .ok i =>
    match Command.ofInvocation files i with
    | .ok (.convert _ none none _) => true
    | _ => false

/-- All that is left in a stream, behind `octets`. -/
partial def readAll (stream : IO.FS.Stream) (octets : ByteArray) : IO ByteArray := do
  let more ← stream.read 65536
  if more.isEmpty then return octets
  readAll stream (octets ++ more)

/-- The octets of the standard input. -/
def readInput : IO Utf8.Octets := do
  return (← readAll (← IO.getStdin) ByteArray.empty).data.toList

/-- An entry that a run has left, put in place. -/
def commit (place : Place) (entry : Entry) : IO Unit := do
  let beside := place.above ++ [FileTree.temporaryName (place.getLastD []) 0]
  let some name := spelt? (Path.mk place).text | return
  let some temporary := spelt? (Path.mk beside).text | return
  match entry with
  | .directory => IO.FS.createDirAll name
  | .file content =>
    IO.FS.writeBinFile temporary ⟨content.toArray⟩
    IO.FS.rename temporary name

/-- The entries that differ from those before, directories first. -/
def changes (before after : FileTree) : List (Place × Entry) :=
  let changed := after.entries.filter fun e => before.get? e.1 ≠ some e.2
  changed.filter (·.2 = .directory) ++ changed.filter (·.2 ≠ .directory)

/-- What is said about a fault that a run does not tell of itself. -/
def escapeMessage : Escape → Text
  | .word fault => fault.message
  | .settings fault => fault.message
  | .logPath fault => fault.message
  | .journal fault => fault.message
  | .echo fault => fault.message

/-- A text written to a stream. -/
def print (stream : IO.FS.Stream) (t : Text) : IO Unit :=
  stream.write ⟨(Utf8.encode t).toArray⟩

/-- A run of the command line on this host. -/
def run (words : List Text) : IO UInt32 := do
  let mut files : FileTree := {}
  for spelling in words.flatMap spellings do
    files ← snapshot files (.ofText spelling)
  for path in settingPaths files words do
    files ← snapshot files path
  let input ← if readsInput files words then readInput else pure []
  let stamp : Text := (← Std.Time.PlainDateTime.now).format "uuuu-MM-dd HH:mm:ss"
  let platform : Platform :=
    { stamp, trace := CommandFault.message, lost := fun r => ["lost: " ++ r.message] }
  let outcome := Host.run ⟨files, input, platform⟩ words
  for (place, entry) in changes files outcome.session.files do
    commit place entry
  print (← IO.getStdout) outcome.session.output
  let errors ← IO.getStderr
  print errors outcome.session.errors
  if let some escape := outcome.escaped then
    print errors ((escapeMessage escape).withHalvesSpelled ++ "\n")
  if outcome.exit = 2 then print errors Refusal.helpText
  return outcome.exit.toUInt32

end CommandLine
end PhoneticBengali

/-- Runs the command line; the result is the exit code. -/
def main (arguments : List String) : IO UInt32 :=
  PhoneticBengali.CommandLine.run (arguments.map PhoneticBengali.Text.ofString)
