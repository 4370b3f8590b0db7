/-
# Documents

What a rule file, a settings file or the context of a log record holds: null,
truth values, numbers, texts, octets, timestamps, lists, pairs, sets and mappings.
A mapping keeps its entries, and a set its items, in the order in which they first
came.

Keys are compared by value, and numbers and truth values share one scale: `true`
is the key `1`, `false` the key `0`, and `1.0` the key `1`.  What is undefined is
one key.
-/

import PhoneticBengali.Calendar.Timestamp
import PhoneticBengali.Number.Binary64

namespace PhoneticBengali

/-- A value of a configuration file. -/
inductive Document where
  | null
  | bool (b : Bool)
  | int (n : Int)
  | float (x : Binary64)
  | str (s : Text)
  | bytes (octets : List UInt8)
  | time (x : Timestamp)
  | list (items : List Document)
  /-- An entry of an ordered mapping. -/
  | pair (first second : Document)
  | set (items : List Document)
  | map (entries : List (Document × Document))
deriving Repr, Inhabited

namespace Document

/-- The name of a document's kind in messages. -/
def kind : Document → String
  | null => "NoneType"
  | bool _ => "bool"
  | int _ => "int"
  | float _ => "float"
  | str _ => "str"
  | bytes _ => "bytes"
  | time x => x.kind
  | list _ => "list"
  | pair _ _ => "tuple"
  | set _ => "set"
  | map _ => "dict"

/-- The name of a document's kind where it is named in full. -/
def fullKind : Document → String
  | time x => s!"datetime.{x.kind}"
  | d => d.kind

/-- The value of a number or truth value. -/
inductive Quantity where
  | undefined
  | infinite (negative : Bool)
  /-- A multiple of the unit of magnitudes. -/
  | finite (units : Int)
deriving DecidableEq, Repr

/-- The value of a document, if it is a number or a truth value. -/
def quantity? : Document → Option Quantity
  | bool b => some (.finite (if b then Magnitude.unitsPerOne else 0))
  | int n => some (.finite (n * Magnitude.unitsPerOne))
  | float .undefined => some .undefined
  | float (.signed negative size) =>
    if size = .infinity then some (.infinite negative)
    else some (.finite (if negative then -(size.units : Int) else size.units))
  | _ => none

/-- Whether two documents are one key.  Collections are no keys. -/
def sameKey : Document → Document → Bool
  | null, null => true
  | str s, str t => s == t
  | bytes s, bytes t => s == t
  | time x, time y => x.same y
  | a, b =>
    match a.quantity?, b.quantity? with
    | some x, some y => x = y
    | _, _ => false

/-- Whether a document can be a key of a mapping. -/
def isKey : Document → Bool
  | list _ => false
  | pair _ _ => false
  | set _ => false
  | map _ => false
  | _ => true

/-- The entries with `key` set to `value`: a key already there keeps its place
and its spelling. -/
def insertEntry (key value : Document) :
    List (Document × Document) → List (Document × Document)
  | [] => [(key, value)]
  | (k, v) :: rest =>
    if sameKey k key then (k, value) :: rest else (k, v) :: insertEntry key value rest

/-- The entries with those of `overrides` set, one after the other. -/
def mergeEntries (entries overrides : List (Document × Document)) :
    List (Document × Document) :=
  overrides.foldl (fun entries e => insertEntry e.1 e.2 entries) entries

/-- The value of the key `name`, if there is one. -/
def field? (entries : List (Document × Document)) (name : Text) : Option Document :=
  (entries.find? fun e => sameKey e.1 (str name)).map (·.2)

/-- The value of the key `name`, null if there is none. -/
def field (entries : List (Document × Document)) (name : Text) : Document :=
  (field? entries name).getD null

/-- What a document is gone through by: its items, the keys of a mapping, the
characters of a text, the numbers of octets. -/
def parts? : Document → Option (List Document)
  | list items => some items
  | map entries => some (entries.map (·.1))
  | pair x y => some [x, y]
  | set items => some items
  | str s => some (s.map fun c => str [c])
  | bytes octets => some (octets.map fun b => int b.toNat)
  | _ => none

/-- Whether a document counts as nothing: null, false, zero and whatever is
empty. -/
def isBlank : Document → Bool
  | null => true
  | bool b => !b
  | int n => n == 0
  | float x => x.isZero
  | str s => s.isEmpty
  | bytes octets => octets.isEmpty
  | time _ => false
  | list items => items.isEmpty
  | pair _ _ => false
  | set items => items.isEmpty
  | map entries => entries.isEmpty

end Document
end PhoneticBengali
