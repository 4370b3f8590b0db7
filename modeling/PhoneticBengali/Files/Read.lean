/-
# Reading files

A file is read as a text in UTF-8 whose line breaks `\r\n` and `\r` count as
line feeds.  A YAML file is read by a reader that is given with the run; the one of
this library reads it in portions, and places a fault of its encoding within the
portion it turned up in.
-/

import PhoneticBengali.Files.Tree
import PhoneticBengali.Text.Lines
import PhoneticBengali.Yaml.Value

namespace PhoneticBengali

/-- Why a file cannot be read. -/
inductive ReadFault where
  | file (fault : FileFault)
  | encoding (fault : Utf8.Fault)
  | yaml (fault : Yaml.Fault)
deriving DecidableEq, Repr

namespace ReadFault

/-- What is said about a fault. -/
def message : ReadFault → Text
  | file fault => fault.message
  | encoding fault => fault.message
  | yaml fault => fault.message

/-- Whether a run that reads its settings tells of a fault; the others escape. -/
def isTold : ReadFault → Bool
  | yaml fault => fault.isTold
  | _ => true

end ReadFault

/-- How the octets of a YAML file become a document. -/
abbrev YamlReader := Utf8.Octets → Except ReadFault Document

namespace YamlReader

/-- The number of octets in a portion. -/
def portionSize : Nat :=
  8192

/-- The reader of this library. -/
def standard : YamlReader := fun octets => do
  let text ← (Utf8.decodePortions portionSize (octets.length + 2) none octets).mapError .encoding
  (Document.ofYaml text.unifyNewlines).mapError .yaml

end YamlReader

namespace FileTree

/-- The text that octets are. -/
def textOf (octets : Utf8.Octets) : Except ReadFault Text := do
  let text ← (Utf8.decode octets).mapError .encoding
  return text.unifyNewlines

/-- The text in the file at a path. -/
def readText (t : FileTree) (path : Path) : Except ReadFault Text := do
  textOf (← (t.read path).mapError .file)

/-- The document in the YAML file at a path. -/
def readYaml (t : FileTree) (reader : YamlReader) (path : Path) : Except ReadFault Document := do
  reader (← (t.read path).mapError .file)

end FileTree
end PhoneticBengali
