/-
# Files

Regular files and directories by their places.  A path is followed name by name:
every one but the last must be a directory.  A name is made of octets; those that are
no part of a character are halves of surrogate pairs in its text.

| a path leads | when |
| --- | --- |
| nowhere | a name on the way is missing |
| nowhere | a name on the way is a regular file |
| to a place | all names but the last are directories; there may be an entry or none |
-/

import PhoneticBengali.Files.Path
import PhoneticBengali.Text.Quoted
import PhoneticBengali.Text.Utf8

namespace PhoneticBengali

/-- What can stand at a place. -/
inductive Entry where
  | file (content : Utf8.Octets)
  | directory
deriving DecidableEq, Repr

/-- Why an operation on a path fails. -/
inductive FileCause where
  | missing
  | exists
  | notDirectory
  | isDirectory
  | nameTooLong
  /-- A name with the character `U+0000` in it. -/
  | nullInName
  /-- A name that octets cannot spell. -/
  | noOctets
  /-- A file of that name is already where one should be moved. -/
  | occupied
deriving DecidableEq, Repr

/-- A failure of an operation on the path that is spelt `path`. -/
structure FileFault where
  cause : FileCause
  path : Text
deriving DecidableEq, Repr

/-- Whether a code point has no octets in a name. -/
def CodePoint.isNameless (c : CodePoint) : Bool :=
  (Utf8.encodePoint c).isEmpty

/-- What of a path has no octets. -/
def FileFault.octetFault? (path : Text) : Option Utf8.EncodeFault :=
  Utf8.firstRefused? (·.isNameless) path

/-- What is said about a failure. -/
def FileFault.message (f : FileFault) : Text :=
  let quoted := Text.quoted f.path
  match f.cause with
  | .missing => "[Errno 2] No such file or directory: " ++ quoted
  | .exists => "[Errno 17] File exists: " ++ quoted
  | .notDirectory => "[Errno 20] Not a directory: " ++ quoted
  | .isDirectory => "[Errno 21] Is a directory: " ++ quoted
  | .nameTooLong => "[Errno 36] File name too long: " ++ quoted
  | .nullInName => "embedded null byte"
  | .noOctets => ((FileFault.octetFault? f.path).map (·.message)).getD []
  | .occupied => "Destination path '" ++ f.path ++ "' already exists"

/-- Entries by their places. -/
structure FileTree where
  entries : List (Place × Entry) := []
deriving DecidableEq, Repr

namespace FileTree

/-- What stands at a place. -/
def get? (t : FileTree) (p : Place) : Option Entry :=
  if p.isTop then some .directory else t.entries.lookup p

/-- What a regular file at a place holds. -/
def content? (t : FileTree) (p : Place) : Option Utf8.Octets :=
  match t.get? p with
  | some (.file content) => some content
  | _ => none

/-- The tree without what stands at a place. -/
def erase (t : FileTree) (p : Place) : FileTree :=
  ⟨t.entries.filter fun e => e.1 != p⟩

/-- The tree with an entry at a place, instead of what stood there. -/
def set (t : FileTree) (p : Place) (e : Entry) : FileTree :=
  ⟨(p, e) :: (t.erase p).entries⟩

/-- Without the entries of one place, nothing else is looked up differently. -/
theorem lookup_filter_ne (entries : List (Place × Entry)) (p q : Place) :
    (entries.filter fun e => e.1 != p).lookup q = if q = p then none else entries.lookup q := by
  induction entries with
  | nil => simp
  | cons e rest ih =>
    obtain ⟨r, x⟩ := e
    by_cases hr : r = p
    · subst hr
      rw [List.filter_cons_of_neg (by simp), ih]
      split
      · rfl
      · next h => rw [List.lookup_cons, beq_eq_false_iff_ne.mpr h]
    · rw [List.filter_cons_of_pos (by simpa using hr), List.lookup_cons, List.lookup_cons, ih]
      by_cases h : q = r
      · have : q ≠ p := h ▸ hr
        simp [h, hr]
      · rw [beq_eq_false_iff_ne.mpr h]

/-- Nothing is left at an erased place, and all other places keep what they
hold. -/
theorem get?_erase (t : FileTree) (p q : Place) (hp : p.isTop = false) :
    (t.erase p).get? q = if q = p then none else t.get? q := by
  by_cases hq : q.isTop
  · have : q ≠ p := fun h => by simp [h, hp] at hq
    simp [get?, hq, this]
  · simp [get?, hq, erase, lookup_filter_ne]

/-- A place holds what it is set to, and all other places keep what they hold. -/
theorem get?_set (t : FileTree) (p q : Place) (e : Entry) (hp : p.isTop = false) :
    (t.set p e).get? q = if q = p then some e else t.get? q := by
  by_cases hq : q.isTop
  · have : q ≠ p := fun h => by simp [h, hp] at hq
    simp [get?, hq, this]
  · by_cases h : q = p
    · simp [get?, set, h, hp]
    · simp [get?, set, erase, lookup_filter_ne, hq, h, List.lookup_cons, beq_eq_false_iff_ne.mpr h]

/-- The greatest number of octets in a name. -/
def nameLimit : Nat :=
  255

/-- The place that names lead to from the directory `here`. -/
def walk (t : FileTree) (here : Place) : List Text → Except FileCause Place
  | [] => .ok here
  | name :: rest =>
    if name = Path.upName then t.walk here.above rest
    else if (Utf8.encode name).length > nameLimit then .error .nameTooLong
    else
      let there := here ++ [name]
      match rest, t.get? there with
      | [], _ => .ok there
      | _, some .directory => t.walk there rest
      | _, some (.file _) => .error .notDirectory
      | _, none => .error .missing

/-- What is wrong with the names of a path, whatever the files. -/
def nameFault? (names : List Text) : Option FileCause :=
  if names.any (·.any (·.isNameless)) then some .noOctets
  else if names.any (·.contains '\x00') then some .nullInName
  else none

/-- The place that a path leads to. -/
def locate (t : FileTree) (path : Path) : Except FileCause Place :=
  match nameFault? path.names with
  | some cause => .error cause
  | none => t.walk [] path.names

/-- What a path leads to. -/
def find (t : FileTree) (path : Path) : Except FileCause Entry := do
  match t.get? (← t.locate path) with
  | some e => return e
  | none => throw .missing

/-- Whether a path leads to a directory. -/
def isDirectory (t : FileTree) (path : Path) : Bool :=
  match t.find path with
  | .ok .directory => true
  | _ => false

/-- What a path leads to, spelt as it was given: a slash or a dot at the end asks
for a directory, and no name at all leads nowhere. -/
def findSpelt (t : FileTree) (spelling : Text) : Except FileCause Entry := do
  if spelling.isEmpty then throw .missing
  let e ← t.find (.ofText spelling)
  let last := (Text.parts '/' spelling).getLastD []
  match e with
  | .file _ => if last.isEmpty || last = "." then throw .notDirectory else return e
  | .directory => return e

/-- Whether a path leads to an entry.  Only a name that is too long is a fault. -/
def leads (t : FileTree) (path : Path) : Except FileFault Bool :=
  match t.find path with
  | .ok _ => .ok true
  | .error .nameTooLong => .error ⟨.nameTooLong, path.text⟩
  | .error _ => .ok false

/-- What the regular file at a path holds. -/
def read (t : FileTree) (path : Path) : Except FileFault Utf8.Octets :=
  match t.find path with
  | .ok (.file content) => .ok content
  | .ok .directory => .error ⟨.isDirectory, path.text⟩
  | .error cause => .error ⟨cause, path.text⟩

end FileTree
end PhoneticBengali
