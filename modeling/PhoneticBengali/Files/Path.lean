/-
# Paths

A path is the list of its names.  Slashes in a row count once, and a name `.`
says nothing, so that many spellings are one path; the name `..` is kept.  An
absolute path begins with the name `/`.

A place is where a path leads: the names from the working directory, or from the
root, down to an entry.  The name `..` stands in a place only in front, for a
directory above the working directory.
-/

import PhoneticBengali.Text.Parts

namespace PhoneticBengali

/-- A path from the working directory or from the root. -/
structure Path where
  names : List Text
deriving DecidableEq, Repr

namespace Path

/-- The name that an absolute path begins with. -/
def rootName : Text :=
  ['/']

/-- The name of the directory above. -/
def upName : Text :=
  ['.', '.']

/-- The path that a text spells. -/
def ofText (t : Text) : Path :=
  let names := (Text.parts '/' t).filter fun (name : Text) => !name.isEmpty && name != "."
  ⟨if t.head? = some ('/' : CodePoint) then rootName :: names else names⟩

/-- The spelling of a path. -/
def text (p : Path) : Text :=
  match p.names with
  | [] => "."
  | first :: rest =>
    if first = rootName then rootName ++ ("/" : Text).intercalate rest
    else ("/" : Text).intercalate p.names

/-- The path without its last name. -/
def parent (p : Path) : Path :=
  if p.names = [rootName] then p else ⟨p.names.dropLast⟩

/-- The last name of a path. -/
def name (p : Path) : Text :=
  if p.names = [rootName] then [] else p.names.getLastD []

end Path

/-- Where an entry stands. -/
abbrev Place := List Text

namespace Place

/-- Whether a place is the root, the working directory or a directory above that. -/
def isTop (p : Place) : Bool :=
  p = [Path.rootName] || p.all (· = Path.upName)

/-- The directory above a place. -/
def above (p : Place) : Place :=
  if p = [Path.rootName] then p
  else if p.isTop then p ++ [Path.upName]
  else p.dropLast

end Place
end PhoneticBengali
