/-
# Writing files

A file is written whole or not at all: its directories are made, the content
goes to a temporary file beside the path, and that is moved onto the path in the
end.  If anything fails on the way, the temporary file is taken away again;
directories that were made stay.

| at the path stands | the temporary file is moved |
| --- | --- |
| nothing, or a regular file | there |
| a directory | into it, under its own name |
-/

import PhoneticBengali.Document.Basic
import PhoneticBengali.Files.Tree
import PhoneticBengali.Json.Pieces
import PhoneticBengali.Text.Lines

namespace PhoneticBengali

/-- The result of an operation, and the files after it. -/
structure Change (ε α : Type) where
  result : Except ε α
  files : FileTree

/-- Why a file is not written. -/
inductive WriteFault where
  | file (fault : FileFault)
  /-- A line that is no text. -/
  | notText (line : Document)
  /-- Lines that cannot be gone through one by one. -/
  | notLines (got : Document)
  /-- An indentation that is neither a number nor a text. -/
  | notIndentation (got : Document)
  /-- A document that JSON has no form for. -/
  | noForm (fault : Json.FormFault)
  /-- A piece of the content that has no form in UTF-8. -/
  | encoding (fault : Utf8.EncodeFault)
deriving Repr

namespace WriteFault

/-- What is said about a fault. -/
def message : WriteFault → Text
  | file fault => fault.message
  | notText (.list _) => "can only concatenate list (not \"str\") to list"
  | notText line => s!"unsupported operand type(s) for +: '{line.kind}' and 'str'"
  | notLines got => s!"'{got.fullKind}' object is not iterable"
  | notIndentation got => s!"can't multiply sequence by non-int of type '{got.fullKind}'"
  | noForm fault => fault.message
  | encoding fault => fault.message

end WriteFault

/-- Content for a file: the octets written until the end or a fault, and the
result. -/
structure Draft (α : Type) where
  content : Utf8.Octets
  result : Except WriteFault α

namespace Draft

variable {α : Type}

/-- A draft that nothing is written of. -/
def failed (fault : WriteFault) : Draft α :=
  ⟨[], .error fault⟩

/-- A text in front of a draft. -/
def behind (t : Text) (draft : Draft α) : Draft α :=
  match Utf8.encodeFault? t with
  | some fault => failed (.encoding fault)
  | none => ⟨Utf8.encode t ++ draft.content, draft.result⟩

/-- Each line with a line feed after it, and the number of lines. -/
def ofLines : List Document → Draft Nat
  | [] => ⟨[], .ok 0⟩
  | .str s :: rest =>
    let others := ofLines rest
    behind (s ++ "\n") ⟨others.content, others.result.map (· + 1)⟩
  | line :: _ => failed (.notText line)

/-- The pieces of a document. -/
def ofPieces : List Json.Piece → Draft Unit
  | [] => ⟨[], .ok ()⟩
  | .ok t :: rest => behind t (ofPieces rest)
  | .error fault :: _ => failed (.noForm fault)

/-- A document as JSON, with an indentation. -/
def ofJson (indentation d : Document) : Draft Unit :=
  match Json.Layout.ofDocument? indentation with
  | none => failed (.notIndentation indentation)
  | some layout => ofPieces (Json.pieces layout 0 d)

end Draft

namespace FileTree

/-! ### Directories -/

/-- The tree with a new directory at a path. -/
def makeDirectory (t : FileTree) (path : Path) : Except FileFault FileTree :=
  match t.locate path with
  | .error cause => .error ⟨cause, path.text⟩
  | .ok p =>
    if (t.get? p).isSome then .error ⟨.exists, path.text⟩ else .ok (t.set p .directory)

/-- A directory at a path, new or not. -/
def ensureDirectory (t : FileTree) (path : Path) : Except FileFault FileTree :=
  match t.makeDirectory path with
  | .ok t => .ok t
  | .error fault => if t.isDirectory path then .ok t else .error fault

/-- A directory at the path whose names are given from the last one on, and all
directories above it. -/
def ensureDirectories (t : FileTree) : List Text → Change FileFault Unit
  | [] => ⟨.ok (), t⟩
  | name :: above =>
    let path : Path := ⟨(name :: above).reverse⟩
    match t.ensureDirectory path with
    | .ok t => ⟨.ok (), t⟩
    | .error fault =>
      if fault.cause = .missing then
        match t.ensureDirectories above with
        | ⟨.ok (), t⟩ =>
          match t.ensureDirectory path with
          | .ok t => ⟨.ok (), t⟩
          | .error fault => ⟨.error fault, t⟩
        | failed => failed
      else ⟨.error fault, t⟩

/-- The directories that a path stands in. -/
def ensureParent (t : FileTree) (path : Path) : Change FileFault Unit :=
  t.ensureDirectories path.parent.names.reverse

/-! ### Temporary files -/

/-- A name for a temporary file beside `name`, with eight letters of its own or more. -/
def temporaryName (name : Text) (number : Nat) : Text :=
  ".tmp." ++ name ++ "." ++ List.replicate (8 + number) ('x' : CodePoint)

/-- Whether an entry has a name. -/
def hasName (t : FileTree) (name : Text) : Bool :=
  t.entries.any fun e => e.1.getLast? = some name

/-- The first name for a temporary file, from `number` on, that no entry has.  One of
`fuel + 1` names is new if there are no more than `fuel` entries. -/
def newName (t : FileTree) (name : Text) : (fuel number : Nat) → Text
  | 0, number => temporaryName name number
  | fuel + 1, number =>
    if t.hasName (temporaryName name number) then t.newName name fuel (number + 1)
    else temporaryName name number

/-- The tree with an entry moved from one place to another, onto what was there. -/
def rename (t : FileTree) (source target : Place) : FileTree :=
  match t.get? source with
  | some e => (t.erase source).set target e
  | none => t

/-- The tree with the file at `source`, called `name`, moved to a path. -/
def move (t : FileTree) (source : Place) (name : Text) (path : Path) :
    Except FileFault FileTree :=
  match t.locate path with
  | .error cause => .error ⟨cause, path.text⟩
  | .ok target =>
    if t.get? target = some .directory then
      let inside := target ++ [name]
      if (t.get? inside).isSome then .error ⟨.occupied, path.text ++ "/" ++ name⟩
      else .ok (t.rename source inside)
    else .ok (t.rename source target)

/-! ### Whole files -/

/-- A draft written to a path. -/
def write {α : Type} (t : FileTree) (path : Path) (draft : Draft α) : Change WriteFault α :=
  match t.ensureParent path with
  | ⟨.error fault, t⟩ => ⟨.error (.file fault), t⟩
  | ⟨.ok (), t⟩ =>
    match t.locate path.parent with
    | .error cause => ⟨.error (.file ⟨cause, path.parent.text⟩), t⟩
    | .ok dir =>
      let name := t.newName path.name t.entries.length 0
      let temporary := dir ++ [name]
      let spelling := path.parent.text ++ "/" ++ name
      if let some cause := nameFault? [name] then ⟨.error (.file ⟨cause, spelling⟩), t⟩
      else if (Utf8.encode name).length > nameLimit then
        ⟨.error (.file ⟨.nameTooLong, spelling⟩), t⟩
      else
        let t := t.set temporary (.file draft.content)
        match draft.result with
        | .error fault => ⟨.error fault, t.erase temporary⟩
        | .ok a =>
          match t.move temporary name path with
          | .error fault => ⟨.error (.file fault), t.erase temporary⟩
          | .ok t => ⟨.ok a, t⟩

/-- Lines written to a path, and their number. -/
def writeLines (t : FileTree) (path : Path) (lines : List Document) : Change WriteFault Nat :=
  t.write path (.ofLines lines)

/-- The parts of a document written to a path as lines, and their number. -/
def writeParts (t : FileTree) (path : Path) (lines : Document) : Change WriteFault Nat :=
  match lines.parts? with
  | some parts => t.writeLines path parts
  | none => t.write path ⟨[], .error (.notLines lines)⟩

/-- A document written to a path as JSON, with an indentation. -/
def writeJson (t : FileTree) (path : Path) (indentation d : Document) : Change WriteFault Unit :=
  t.write path (.ofJson indentation d)

/-! ### Appending -/

/-- A regular file at a path, empty if there was none; its place. -/
def openAppending (t : FileTree) (path : Path) : Except FileFault (Place × FileTree) :=
  match t.locate path with
  | .error cause => .error ⟨cause, path.text⟩
  | .ok p =>
    match t.get? p with
    | some .directory => .error ⟨.isDirectory, path.text⟩
    | some (.file _) => .ok (p, t)
    | none => .ok (p, t.set p (.file []))

/-- The tree with a text put behind what the file at a place holds. -/
def append (t : FileTree) (p : Place) (text : Text) : FileTree :=
  t.set p (.file ((t.content? p).getD [] ++ Utf8.encode text))

end FileTree
end PhoneticBengali
